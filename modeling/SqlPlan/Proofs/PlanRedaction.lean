import SqlPlan.Proofs.Reachable
import SqlPlan.Proofs.Redaction

/-!
# Plans without their data

Redaction of a plan takes the data out of its expressions and leaves everything else. Building
commutes with it: a building call on redacted arguments gives the redacted plan, or fails with the
same error (`Query.filter_redact` and the like). What is asked of a redacted plan is answered by
the same SQL with the same number of parameters (`Plan.alike_ask`).
-/

namespace SqlPlan

/-- The column with what it holds redacted. -/
def Item.redact (i : Item) : Item := { i with value := i.value.redact }

/-- The term with its key redacted. -/
def OrderTerm.redact (t : OrderTerm) : OrderTerm := { t with key := t.key.redact }

/-- The join with its keys redacted. -/
def Join.redact (j : Join) : Join :=
  { j with outerKey := j.outerKey.redact, innerKey := j.innerKey.redact }

/-- A column is assigned by its field alone, whatever the expression holds. -/
theorem Entity.assign_redact (e : Entity) (f : Field) (value : Expr) :
    e.assign f value.redact = Item.redact <$> e.assign f value := by
  rw [assign, assign]
  split <;> rfl

namespace Query

open Fragment

/-- The query with all its expressions redacted. -/
def redact (q : Query) : Query :=
  { q with
    join := q.join.map Join.redact
    items := q.items.map Item.redact
    filters := q.filters.map Expr.redact
    keys := q.keys.map Expr.redact
    having := q.having.map Expr.redact
    order := q.order.map OrderTerm.redact }

variable {Γ : Catalog} {q : Query}

/-! ## What the guards of building see -/

@[simp] theorem isGrouped_redact (q : Query) : q.redact.isGrouped = q.isGrouped := by
  rw [isGrouped, isGrouped, redact, List.isEmpty_map]

@[simp] theorem isProjected_redact (q : Query) : q.redact.isProjected = q.isProjected := by
  rw [isProjected, isProjected, redact, List.isEmpty_map]

@[simp] theorem isOrderedOrPaged_redact (q : Query) :
    q.redact.isOrderedOrPaged = q.isOrderedOrPaged := by
  rw [isOrderedOrPaged, isOrderedOrPaged, redact, List.isEmpty_map]

@[simp] theorem needsSubquery_redact (q : Query) : q.redact.needsSubquery = q.needsSubquery := by
  rw [needsSubquery, needsSubquery, isGrouped_redact]
  rfl

/-- The redacted query emits in the redacted scope. -/
theorem scope_redact (q : Query) : q.redact.scope = q.scope.redact := by
  obtain ⟨source, join, _⟩ := q
  cases join <;> rfl

theorem groupScope_redact (q : Query) : q.redact.groupScope = q.groupScope.redact := by
  rw [groupScope, groupScope, isGrouped_redact, scope_redact]
  cases q.isGrouped <;> rfl

/-- The names of selected columns are checked, not what they hold. -/
theorem checkItems_redact (seen : List Bytes) (items : List Item) :
    checkItems seen (items.map Item.redact) = checkItems seen items := by
  induction items generalizing seen with
  | nil => rfl
  | cons i items ih =>
    rw [List.map_cons, checkItems, checkItems, ih]
    rfl

/-- A join key is checked by the columns it refers to, which are no data. -/
theorem checkJoinKey_redact (side : JoinSide) (key : Expr) (owner : EntityId) :
    checkJoinKey Γ side key.redact owner = checkJoinKey Γ side key owner := by
  rw [checkJoinKey, checkJoinKey, Expr.references_redact]

/-- A group key is checked by its references, and by whether it is one to a key itself. -/
theorem checkKey_redact (k : Expr) : checkKey k.redact = checkKey k := by
  rw [checkKey, checkKey, Expr.references_redact, Expr.isKey_redact]

/-- The keys are checked in the same order, so the same one is the first to be refused. -/
theorem forM_checkKey_redact (keys : List Expr) :
    (keys.map Expr.redact).forM checkKey = keys.forM checkKey := by
  induction keys with
  | nil => rfl
  | cons k keys ih =>
    change (checkKey k.redact >>= fun _ => (keys.map Expr.redact).forM checkKey) =
      checkKey k >>= fun _ => keys.forM checkKey
    rw [checkKey_redact, ih]

/-! ## Clauses -/

/-- Conditions that are taken together are emitted alike: redaction leaves their number, which
decides about parentheses. -/
theorem alike_emitAll (s : Scope) (ps : List Expr) :
    Except.Alike SameText (emitAll Γ s ps) (emitAll Γ s.redact (ps.map Expr.redact)) := by
  rw [emitAll, emitAll, List.length_map]
  refine (Except.Alike.mapM fun p _ => Expr.alike_emit s p).bind fun _ _ hfs => .ok ?_
  refine SameText.joined _ ?_
  rw [List.forall₂_map_left_iff, List.forall₂_map_right_iff]
  exact hfs.imp fun _ _ hf => hf.parensIf _

theorem alike_emitItem (s : Scope) (i : Item) :
    Except.Alike SameText (emitItem Γ s i) (emitItem Γ s.redact i.redact) :=
  (Expr.alike_emitOperand s i.value).bind fun _ _ ha => .ok (ha.append (.refl _))

theorem alike_emitTerm (s : Scope) (t : OrderTerm) :
    Except.Alike SameText (emitTerm Γ s t) (emitTerm Γ s.redact t.redact) :=
  (Expr.alike_emit s t.key).bind fun _ _ ha => .ok (ha.append (.refl _))

/-- The columns of a SELECT are emitted alike, be they selected, group keys or those of the
entity. -/
theorem alike_emitColumns (q : Query) :
    Except.Alike SameText (q.emitColumns Γ) (q.redact.emitColumns Γ) := by
  rw [emitColumns, emitColumns, isProjected_redact, isGrouped_redact, groupScope_redact,
    scope_redact]
  split
  · exact (Except.Alike.mapM fun i _ => alike_emitItem q.groupScope i).bind
      fun _ _ hfs => .ok (SameText.joined _ hfs)
  · split
    · exact (Except.Alike.mapM fun k _ => Expr.alike_emit q.scope k).bind
        fun _ _ hfs => .ok (SameText.joined _ hfs)
    · exact .ok (.refl _)

/-- The tables are emitted alike; of a join only the two keys are expressions. -/
theorem alike_emitFrom (q : Query) :
    Except.Alike SameText (q.emitFrom Γ) (q.redact.emitFrom Γ) := by
  rw [emitFrom, emitFrom, scope_redact]
  have hjoin : q.redact.join = q.join.map Join.redact := rfl
  rw [hjoin]
  cases q.join with
  | none => exact .ok (.refl _)
  | some j =>
    refine (Expr.alike_emitOperand q.scope j.outerKey).bind fun _ _ ha => ?_
    refine (Expr.alike_emitOperand q.scope j.innerKey).bind fun _ _ hb => .ok ?_
    exact (((SameText.refl _).append ha).append (.refl _)).append hb

/-- There is a WHERE for the redacted query where there is one for the query, with the same text. -/
theorem alike_emitWhere (q : Query) :
    Except.Alike SameText (q.emitWhere Γ) (q.redact.emitWhere Γ) := by
  have hempty : q.redact.filters.isEmpty = q.filters.isEmpty := List.isEmpty_map
  rw [emitWhere, emitWhere, scope_redact, hempty]
  split
  · exact .ok (.refl _)
  · exact (alike_emitAll q.scope q.filters).bind fun _ _ ha => .ok ((SameText.refl _).append ha)

theorem alike_emitKeys (q : Query) :
    Except.Alike SameText (q.emitKeys Γ) (q.redact.emitKeys Γ) := by
  rw [emitKeys, emitKeys, scope_redact, isGrouped_redact]
  split
  · exact .ok (.refl _)
  · exact (Except.Alike.mapM fun k _ => Expr.alike_emit q.scope k).bind
      fun _ _ hfs => .ok ((SameText.refl _).append (SameText.joined _ hfs))

theorem alike_emitHaving (q : Query) :
    Except.Alike SameText (q.emitHaving Γ) (q.redact.emitHaving Γ) := by
  have hempty : q.redact.having.isEmpty = q.having.isEmpty := List.isEmpty_map
  rw [emitHaving, emitHaving, groupScope_redact, isGrouped_redact, hempty]
  split
  · exact .ok (.refl _)
  · exact (alike_emitAll q.groupScope q.having).bind
      fun _ _ ha => .ok ((SameText.refl _).append ha)

theorem alike_emitOrder (q : Query) :
    Except.Alike SameText (q.emitOrder Γ) (q.redact.emitOrder Γ) := by
  have hempty : q.redact.order.isEmpty = q.order.isEmpty := List.isEmpty_map
  rw [emitOrder, emitOrder, groupScope_redact, hempty]
  split
  · exact .ok (.refl _)
  · exact (Except.Alike.mapM fun t _ => alike_emitTerm q.groupScope t).bind
      fun _ _ hfs => .ok ((SameText.refl _).append (SameText.joined _ hfs))

theorem alike_emitRows (q : Query) : Except.Alike SameText (q.emitRows Γ) (q.redact.emitRows Γ) :=
  (alike_emitFrom q).bind fun _ _ ha => (alike_emitWhere q).bind fun _ _ hb => .ok (ha.append hb)

/-- A query is emitted as its redaction is, up to the values that are bound. -/
theorem alike_emit (q : Query) : Except.Alike SameText (q.emit Γ) (q.redact.emit Γ) := by
  refine (alike_emitColumns q).bind fun _ _ hcolumns => ?_
  refine (alike_emitRows q).bind fun _ _ hrows => ?_
  refine (alike_emitKeys q).bind fun _ _ hkeys => ?_
  refine (alike_emitHaving q).bind fun _ _ hhaving => ?_
  refine (alike_emitOrder q).bind fun _ _ horder => .ok ?_
  have hhead := ((SameText.refl (word "SELECT " ++ if q.distinct then word "DISTINCT " else [])
    ).append hcolumns).append (.refl (word " "))
  exact ((((hhead.append hrows).append hkeys).append hhaving).append horder).append (.refl _)

/-! ## Building -/

/-- Validation is an emission whose text is dropped: it fails for the redacted query with the error
it fails with for the query. -/
theorem validated_redact (q : Query) : q.redact.validated Γ = redact <$> q.validated Γ := by
  have halike := alike_emit (Γ := Γ) q
  rw [validated, validated]
  revert halike
  generalize q.emit Γ = x
  generalize q.redact.emit Γ = y
  intro halike
  cases halike <;> rfl

/-- A condition is added to a redacted query as it is to the query: the guard sees whether there are
keys, and validation sees no data. -/
theorem filter_redact (q : Query) (p : Expr) :
    q.redact.filter Γ p.redact = redact <$> q.filter Γ p := by
  have hextended : { q.redact with filters := q.redact.filters ++ [p.redact.toPredicate] } =
      redact { q with filters := q.filters ++ [p.toPredicate] } := by
    simp only [redact, List.map_append, List.map_singleton, Expr.redact_toPredicate]
  rw [filter_eq, filter_eq, isGrouped_redact, hextended, validated_redact, Except.map_guard,
    Except.map_guard]
  rfl

/-- An ordering replaces the one there was, redacted or not. -/
theorem orderBy_redact (q : Query) (key : Expr) (descending : Bool) :
    q.redact.orderBy Γ key.redact descending = redact <$> q.orderBy Γ key descending := by
  have hextended : { q.redact with order := [⟨key.redact, descending⟩] } =
      redact { q with order := [⟨key, descending⟩] } := rfl
  rw [orderBy_eq, orderBy_eq, hextended, validated_redact, Except.map_guard]
  rfl

/-- A further ordering asks whether there is one before it, which redaction leaves. -/
theorem thenBy_redact (q : Query) (key : Expr) (descending : Bool) :
    q.redact.thenBy Γ key.redact descending = redact <$> q.thenBy Γ key descending := by
  have hextended : { q.redact with order := q.redact.order ++ [⟨key.redact, descending⟩] } =
      redact { q with order := q.order ++ [⟨key, descending⟩] } := by
    simp only [redact, List.map_append, List.map_singleton, OrderTerm.redact]
  have hempty : q.redact.order.isEmpty = q.order.isEmpty := List.isEmpty_map
  rw [thenBy_eq, thenBy_eq, hempty, hextended, validated_redact, Except.map_guard,
    Except.map_guard]
  rfl

/-- Paging is no data: numbers of rows are checked and kept as they are. -/
theorem take_redact (q : Query) (n : Int) : q.redact.take n = redact <$> q.take n := by
  rw [take, take]
  have hpaging : q.redact.paging = q.paging := rfl
  rw [hpaging]
  cases q.paging.take n <;> rfl

theorem skip_redact (q : Query) (n : Int) : q.redact.skip n = redact <$> q.skip n := by
  rw [skip, skip]
  have hpaging : q.redact.paging = q.paging := rfl
  rw [hpaging]
  cases q.paging.skip n <;> rfl

/-- A selection is refused for the number or the names of its columns or for one made before, none
of which redaction changes; validation does the rest. -/
theorem select_redact (q : Query) (items : List Item) :
    q.redact.select Γ (items.map Item.redact) = redact <$> q.select Γ items := by
  have hextended : { q.redact with items := items.map Item.redact } =
      redact { q with items := items } := rfl
  rw [select_eq, select_eq, isProjected_redact, checkItems_redact, List.isEmpty_map, hextended,
    validated_redact, Except.map_guard, Except.map_guard, map_bind]

/-- A join is refused for what the query has by then and for the references of its keys. -/
theorem joinWith_redact (q : Query) (kind : JoinKind) (inner : EntityId)
    (outerKey innerKey : Expr) :
    q.redact.joinWith Γ kind inner outerKey.redact innerKey.redact =
      redact <$> q.joinWith Γ kind inner outerKey innerKey := by
  have hextended :
      { q.redact with join := some ⟨kind, inner, outerKey.redact, innerKey.redact⟩ } =
        redact { q with join := some ⟨kind, inner, outerKey, innerKey⟩ } := rfl
  have hsome : q.redact.join.isSome = q.join.isSome := Option.isSome_map
  rw [joinWith_eq, joinWith_eq, hsome, isGrouped_redact, isProjected_redact, checkJoinKey_redact,
    checkJoinKey_redact, hextended, validated_redact, Except.map_guard, Except.map_guard,
    Except.map_guard, map_bind]
  simp only [map_bind]
  rfl

/-- Grouping is refused for what the query has by then and for the references of its keys. -/
theorem groupBy_redact (q : Query) (keys : List Expr) :
    q.redact.groupBy Γ (keys.map Expr.redact) = redact <$> q.groupBy Γ keys := by
  have hextended : { q.redact with keys := keys.map Expr.redact } =
      redact { q with keys := keys } := rfl
  rw [groupBy_eq, groupBy_eq, isGrouped_redact, isProjected_redact, isOrderedOrPaged_redact,
    List.isEmpty_map, forM_checkKey_redact, hextended, validated_redact, Except.map_guard,
    Except.map_guard, Except.map_guard, Except.map_guard, map_bind]
  rfl

theorem filterGroups_redact (q : Query) (p : Expr) :
    q.redact.filterGroups Γ p.redact = redact <$> q.filterGroups Γ p := by
  have hextended : { q.redact with having := q.redact.having ++ [p.redact.toPredicate] } =
      redact { q with having := q.having ++ [p.toPredicate] } := by
    simp only [redact, List.map_append, List.map_singleton, Expr.redact_toPredicate]
  rw [filterGroups_eq, filterGroups_eq, isGrouped_redact, hextended, validated_redact,
    Except.map_guard, Except.map_guard]
  rfl

/-! ## Questions about a query -/

theorem alike_emitProbe (q : Query) (test : Bytes) :
    Except.Alike SameText (q.emitProbe Γ test) (q.redact.emitProbe Γ test) :=
  (alike_emitRows q).bind fun _ _ h => .ok (((SameText.refl _).append h).append (.refl _))

/-- A query is counted through a subquery exactly where its redaction is. -/
theorem alike_emitCount (q : Query) :
    Except.Alike SameText (q.emitCount Γ) (q.redact.emitCount Γ) := by
  rw [emitCount, emitCount, needsSubquery_redact]
  split
  · exact (alike_emit q).bind fun _ _ h => .ok (((SameText.refl _).append h).append (.refl _))
  · exact (alike_emitRows q).bind fun _ _ h => .ok ((SameText.refl _).append h)

/-- Whether there are rows is asked through a subquery exactly where it is of the redaction. -/
theorem alike_emitExists (q : Query) :
    Except.Alike SameText (q.emitExists Γ) (q.redact.emitExists Γ) := by
  rw [emitExists, emitExists, needsSubquery_redact]
  split
  · exact (alike_emit q).bind fun _ _ h => .ok (((SameText.refl _).append h).append (.refl _))
  · exact alike_emitProbe q _

/-- A filtered query and its redaction come out alike where they are emitted alike. -/
theorem alike_filter_bind (q : Query) (p : Expr) {g : Query → Except TranslationError Fragment}
    (hg : ∀ q, Except.Alike SameText (g q) (g q.redact)) :
    Except.Alike SameText (q.filter Γ p >>= g) (q.redact.filter Γ p.redact >>= g) := by
  rw [filter_redact]
  cases q.filter Γ p with
  | error e => exact .error e
  | ok q' => exact hg q'

/-- The predicate of the question becomes one more condition, so that building and emission both
have to agree. -/
theorem alike_emitAny (q : Query) (p : Expr) :
    Except.Alike SameText (q.emitAny Γ p) (q.redact.emitAny Γ p.redact) := by
  rw [emitAny, emitAny, needsSubquery_redact]
  split
  · exact .error _
  · exact alike_filter_bind q p alike_emitExists

/-- Redaction commutes with the negation that the statement for all rows tests. -/
theorem alike_emitEvery (q : Query) (p : Expr) :
    Except.Alike SameText (q.emitEvery Γ p) (q.redact.emitEvery Γ p.redact) := by
  rw [emitEvery, emitEvery, needsSubquery_redact, ← Expr.redact_negate]
  split
  · exact .error _
  · exact alike_filter_bind q p.negate fun q' => alike_emitProbe q' _

/-- A limit is written as a number, not bound. -/
theorem alike_emitLimited (q : Query) (n : Int) :
    Except.Alike SameText (q.emitLimited Γ n) (q.redact.emitLimited Γ n) :=
  alike_emit (q.limitTo n)

end Query

/-! ## Plans -/

namespace Plan

open Fragment

variable {Γ : Catalog}

/-- The plan with all its queries redacted. -/
def redact : Plan → Plan
  | .query q => .query q.redact
  | .combine op l r t => .combine op l.redact r.redact t

@[simp] theorem isOrderedOrPaged_redact (p : Plan) :
    p.redact.isOrderedOrPaged = p.isOrderedOrPaged := by
  cases p with
  | query q => exact q.isOrderedOrPaged_redact
  | combine op l r t => rfl

theorem wrapsLeft_redact (p : Plan) : p.redact.wrapsLeft = p.wrapsLeft :=
  p.isOrderedOrPaged_redact

/-- The right operand is wrapped for its shape, which redaction leaves. -/
theorem wrapsRight_redact (p : Plan) : p.redact.wrapsRight = p.wrapsRight := by
  rw [wrapsRight, wrapsRight, isOrderedOrPaged_redact]
  cases p <;> rfl

/-- A set operation is ordered by a column of the result; any other key is refused, redacted or
not. -/
theorem orderColumn_redact (key : Expr) : orderColumn Γ key.redact = orderColumn Γ key := by
  cases key <;> rfl

/-- An ordering of a plan goes to its query, or to the end of a set operation by the name of a
column. -/
theorem orderBy_redact (p : Plan) (key : Expr) (descending : Bool) :
    p.redact.orderBy Γ key.redact descending = redact <$> p.orderBy Γ key descending := by
  cases p with
  | query q =>
    rw [redact, orderBy, orderBy, Query.orderBy_redact]
    cases q.orderBy Γ key descending <;> rfl
  | combine op l r t =>
    rw [redact, orderBy, orderBy, orderColumn_redact, map_bind]
    refine congrArg _ (funext fun c => ?_)
    cases t.orderBy c descending <;> rfl

theorem thenBy_redact (p : Plan) (key : Expr) (descending : Bool) :
    p.redact.thenBy Γ key.redact descending = redact <$> p.thenBy Γ key descending := by
  cases p with
  | query q =>
    rw [redact, thenBy, thenBy, Query.thenBy_redact]
    cases q.thenBy Γ key descending <;> rfl
  | combine op l r t =>
    rw [redact, thenBy, thenBy, orderColumn_redact, map_bind]
    refine congrArg _ (funext fun c => ?_)
    cases t.thenBy c descending <;> rfl

/-- The number of rows of a plan is that of its query, or of the end of a set operation. -/
theorem take_redact (p : Plan) (n : Int) : p.redact.take n = redact <$> p.take n := by
  cases p with
  | query q =>
    rw [redact, take, take, Query.take_redact]
    cases q.take n <;> rfl
  | combine op l r t =>
    rw [redact, take, take]
    cases t.take n <;> rfl

theorem skip_redact (p : Plan) (n : Int) : p.redact.skip n = redact <$> p.skip n := by
  cases p with
  | query q =>
    rw [redact, skip, skip, Query.skip_redact]
    cases q.skip n <;> rfl
  | combine op l r t =>
    rw [redact, skip, skip]
    cases t.skip n <;> rfl

/-- A subselect around fragments with the same text leaves them so. -/
theorem sameText_wrap {f g : Fragment} (needed : Bool) (h : SameText f g) :
    SameText (Plan.wrap needed f) (Plan.wrap needed g) := by
  rw [Plan.wrap, Plan.wrap]
  split
  · exact ((SameText.refl _).append h).append (.refl _)
  · exact h

/-- A plan is emitted as its redaction is, up to the values that are bound. The induction is on the
tree of the calls. -/
theorem alike_emit (p : Plan) : Except.Alike SameText (p.emit Γ) (p.redact.emit Γ) := by
  induction p with
  | query q => exact q.alike_emit
  | combine op l r t ihl ihr =>
    refine ihl.bind fun _ _ ha => ihr.bind fun _ _ hb => .ok ?_
    rw [wrapsLeft_redact, wrapsRight_redact]
    exact (((sameText_wrap _ ha).append (.refl _)).append (sameText_wrap _ hb)).append (.refl _)

end Plan

/-- The question with its predicate redacted. -/
def Question.redact : Question → Question
  | .any p => .any p.redact
  | .every p => .every p.redact
  | a => a

namespace Plan

open Fragment

variable {Γ : Catalog}

/-- Every question about a plan has the statement of the redacted question about the redacted plan,
up to the values that are bound. -/
theorem alike_ask (p : Plan) (a : Question) :
    Option.Rel (Except.Alike SameText) (p.ask Γ a) (p.redact.ask Γ a.redact) := by
  -- all statements of a set operation wrap the same emission
  have hwrapped : ∀ (op : SetOp) (l r : Plan) (t : Tail) (before after : Fragment),
      Except.Alike SameText
        ((Plan.combine op l r t).emit Γ >>= fun f => pure (before ++ f ++ after))
        ((Plan.combine op l r t).redact.emit Γ >>= fun f => pure (before ++ f ++ after)) := by
    intro op l r t before after
    refine (alike_emit _).bind fun _ _ h => .ok ?_
    exact ((SameText.refl _).append h).append (.refl _)
  cases p with
  | query q =>
    cases a with
    | rows => exact .some q.alike_emit
    | count => exact .some q.alike_emitCount
    | nonempty => exact .some q.alike_emitExists
    | any e => exact .some (q.alike_emitAny e)
    | every e => exact .some (q.alike_emitEvery e)
    | first n => exact .some (q.alike_emitLimited n)
  | combine op l r t =>
    cases a with
    | rows => exact .some (alike_emit _)
    | count => exact .some (hwrapped op l r t _ _)
    | nonempty => exact .some (hwrapped op l r t _ _)
    | any e => exact .none
    | every e => exact .none
    | first n => exact .some (hwrapped op l r t _ _)

/-- What shows of the statement for a question: its SQL and the number of its parameters, or the
error it fails with. -/
def shown (Γ : Catalog) (p : Plan) (a : Question) :
    Option (Except TranslationError (Bytes × Nat)) :=
  (p.ask Γ a).map fun x => (fun f => (f.statement.sql, f.statement.params.length)) <$> x

/-- **Data does not show**: a redacted plan shows what the plan does. -/
theorem shown_redact (p : Plan) (a : Question) :
    p.redact.shown Γ a.redact = p.shown Γ a := by
  have halike := p.alike_ask (Γ := Γ) a
  rw [shown, shown]
  revert halike
  generalize p.ask Γ a = x
  generalize p.redact.ask Γ a.redact = y
  intro halike
  cases halike with
  | none => rfl
  | some h =>
    cases h with
    | error e => rfl
    | ok h =>
      exact congrArg (fun shown => some (Except.ok shown))
        (Prod.ext h.sql_eq.symm h.length_params_eq.symm)

end Plan

end SqlPlan
