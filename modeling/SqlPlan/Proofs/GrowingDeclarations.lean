import SqlPlan.Proofs.WellFormed

/-!
# Plans while declarations grow

A property can be declared when there are plans already that name its entity. A declaration takes
nothing away (`Catalog.Keeps`), and so nothing that was built before is lost:
`Query.Reachable.replay` says that the calls that built a query, each under the declarations of its
time, could all have been made under the later ones.

That rests on what a query asks of the declarations. `Query.translates_iff` says that it can be
emitted when each of its expressions can, each for itself in the scope of its clause; an expression
asks for its columns to be declared, and for nothing else.
-/

namespace SqlPlan

/-! ## Catalogs -/

/-- A catalog **keeps** another one: it declares every property that the other declares. -/
def Catalog.Keeps (Γ Δ : Catalog) : Prop :=
  ∀ id name, ((Γ id).find? name).isSome = true → ((Δ id).find? name).isSome = true

theorem Catalog.keeps_refl (Γ : Catalog) : Γ.Keeps Γ := fun _ _ h => h

/-- A declaration keeps what was declared before. -/
theorem Catalog.keeps_declare {Γ : Catalog} {id : EntityId} {name column : Bytes} {f : Field}
    {isKey isGenerated : Bool} {e : Entity}
    (h : (Γ id).declare name f isKey isGenerated column = .ok e) :
    Γ.Keeps fun i => if i = id then e else Γ i := by
  rw [Entity.declare, Except.guard_eq_ok] at h
  obtain rfl := Except.ok.inj h.2
  intro i other hother
  dsimp only
  split
  · subst i
    rw [Entity.find?] at hother ⊢
    rw [Entity.attach, List.find?_append, Option.isSome_or, hother, Bool.true_or]
  · exact hother

/-! ## Expressions -/

namespace Expr

variable {Γ Δ : Catalog} {s : Scope} {e : Expr} {f : Fragment}
  {onKey onKey' : Scope → Option Nat → Except TranslationError Fragment}

/-- The expression can be emitted in a scope. -/
def Translates (Γ : Catalog) (s : Scope) (e : Expr) : Prop := ∃ f, e.emit Γ s = .ok f

/-- A column that has a name keeps having one. -/
theorem exists_column_of_keeps (hΔ : Γ.Keeps Δ) {owner : EntityId} {property : Bytes}
    (h : s.column Γ owner property = .ok f) : ∃ g, s.column Δ owner property = .ok g := by
  obtain ⟨hkey, name, hname, -⟩ := Scope.column_eq_ok.1 h
  obtain ⟨hvisible, p, hp, -⟩ := Scope.resolve_eq_ok.1 hname
  obtain ⟨p', hp'⟩ := Option.isSome_iff_exists.1 (hΔ owner property (by rw [hp]; rfl))
  exact ⟨_, Scope.column_eq_ok.2 ⟨hkey, _, Scope.resolve_eq_ok.2 ⟨hvisible, p', hp', rfl⟩, rfl⟩⟩

/-- **What can be emitted stays so** while declarations grow, if that is so of group keys. -/
theorem exists_emitWith_of_keeps (hΔ : Γ.Keeps Δ)
    (hkey : ∀ s' : Scope, s'.grouping = s.grouping → ∀ index f, onKey s' index = .ok f →
      ∃ g, onKey' s' index = .ok g)
    (h : emitWith Γ onKey s e = .ok f) : ∃ g, emitWith Δ onKey' s e = .ok g := by
  induction e generalizing s f with
  | column owner property => exact exists_column_of_keeps hΔ h
  | literal | raw => exact ⟨f, h⟩
  | countRows => exact ⟨f, emitWith_countRows_eq_ok.2 (emitWith_countRows_eq_ok.1 h)⟩
  | key index => exact hkey s rfl index f h
  | truth e ih => exact ih hkey h
  | arith op l r ihl ihr =>
    obtain ⟨a, b, ha, hb, -⟩ := emitWith_arith_eq_ok.1 h
    obtain ⟨a', ha'⟩ := ihl hkey ha
    obtain ⟨b', hb'⟩ := ihr hkey hb
    exact ⟨_, emitWith_arith_eq_ok.2 ⟨a', b', ha', hb', rfl⟩⟩
  | logic op l r ihl ihr =>
    obtain ⟨a, b, ha, hb, -⟩ := emitWith_logic_eq_ok.1 h
    obtain ⟨a', ha'⟩ := ihl hkey ha
    obtain ⟨b', hb'⟩ := ihr hkey hb
    exact ⟨_, emitWith_logic_eq_ok.2 ⟨a', b', ha', hb', rfl⟩⟩
  | compare op l r ihl ihr =>
    -- which of its sides are the literal NULL does not depend on declarations
    rcases emitWith_compare_eq_ok.1 h with ⟨hl, hr, a, b, ha, hb, -⟩ |
      ⟨hr, test, a, htest, ha, -⟩ | ⟨hl, hr, test, b, htest, hb, -⟩
    · obtain ⟨a', ha'⟩ := ihl hkey ha
      obtain ⟨b', hb'⟩ := ihr hkey hb
      exact ⟨_, emitWith_compare_eq_ok.2 (.inl ⟨hl, hr, a', b', ha', hb', rfl⟩)⟩
    · obtain ⟨a', ha'⟩ := ihl hkey ha
      exact ⟨_, emitWith_compare_eq_ok.2 (.inr (.inl ⟨hr, test, a', htest, ha', rfl⟩))⟩
    · obtain ⟨b', hb'⟩ := ihr hkey hb
      exact ⟨_, emitWith_compare_eq_ok.2 (.inr (.inr ⟨hl, hr, test, b', htest, hb', rfl⟩))⟩
  | aggregate fn e ih =>
    obtain ⟨hfn, a, ha, -⟩ := emitWith_aggregate_eq_ok.1 h
    obtain ⟨a', ha'⟩ := ih (s := s.insideAggregate) hkey ha
    exact ⟨_, emitWith_aggregate_eq_ok.2 ⟨hfn, a', ha', rfl⟩⟩
  | call fn e ih =>
    obtain ⟨a, ha, -⟩ := emitWith_call_eq_ok.1 h
    obtain ⟨a', ha'⟩ := ih hkey ha
    exact ⟨_, emitWith_call_eq_ok.2 ⟨a', ha', rfl⟩⟩
  | nullCheck negated e ih =>
    obtain ⟨a, ha, -⟩ := emitWith_nullCheck_eq_ok.1 h
    obtain ⟨a', ha'⟩ := ih hkey ha
    exact ⟨_, emitWith_nullCheck_eq_ok.2 ⟨a', ha', rfl⟩⟩
  | not e ih =>
    obtain ⟨a, ha, -⟩ := emitWith_not_eq_ok.1 h
    obtain ⟨a', ha'⟩ := ih hkey ha
    exact ⟨_, emitWith_not_eq_ok.2 ⟨a', ha', rfl⟩⟩
  | like e text anchor ih =>
    obtain ⟨a, ha, -⟩ := emitWith_like_eq_ok.1 h
    obtain ⟨a', ha'⟩ := ih hkey ha
    exact ⟨_, emitWith_like_eq_ok.2 ⟨a', ha', rfl⟩⟩
  | oneOf e items ih =>
    obtain ⟨a, ha, -⟩ := emitWith_oneOf_eq_ok.1 h
    obtain ⟨a', ha'⟩ := ih hkey ha
    exact ⟨_, emitWith_oneOf_eq_ok.2 ⟨a', ha', rfl⟩⟩

/-- What can be emitted stays so while declarations grow. -/
theorem Translates.keeps (h : e.Translates Γ s) (hΔ : Γ.Keeps Δ) : e.Translates Δ s := by
  obtain ⟨f, hf⟩ := h
  refine exists_emitWith_of_keeps hΔ (fun s' _ index g hg => ?_) hf
  obtain ⟨k, a, hk, ha, -⟩ := emitKey_eq_ok.1 hg
  -- a group key is emitted outside groups, where it meets no further key
  have hnone : ∀ t : Scope, t.grouping = s'.ungrouped.grouping → ∀ (i : Option Nat) (b : Fragment),
      (.error .keyOutsideGroup : Except TranslationError Fragment) = .ok b →
      ∃ c, (.error .keyOutsideGroup : Except TranslationError Fragment) = .ok c := nofun
  obtain ⟨a', ha'⟩ := exists_emitWith_of_keeps hΔ hnone ha
  exact ⟨_, emitKey_eq_ok.2 ⟨k, a', hk, ha', rfl⟩⟩

/-- An operand is emitted exactly where its expression is: parentheses never fail. -/
theorem translates_operand : (∃ f, e.emitOperand Γ s = .ok f) ↔ e.Translates Γ s := by
  constructor
  · rintro ⟨f, hf⟩
    obtain ⟨a, ha, -⟩ := emitOperand_eq_ok.1 hf
    exact ⟨a, ha⟩
  · rintro ⟨a, ha⟩
    exact ⟨_, emitOperand_eq_ok.2 ⟨a, ha, rfl⟩⟩

end Expr

/-! ## Queries -/

namespace Query

open Fragment

variable {Γ Δ : Catalog} {q q' : Query}

/-- Members that can each be emitted are emitted. -/
theorem exists_each {α : Type} {emitOne : α → Except TranslationError Fragment} {as : List α}
    (h : ∀ a ∈ as, ∃ f, emitOne a = .ok f) : ∃ fs, Each emitOne as fs := by
  induction as with
  | nil => exact ⟨[], .nil⟩
  | cons a as ih =>
    obtain ⟨⟨f, hf⟩, has⟩ := List.forall_mem_cons.1 h
    obtain ⟨fs, hfs⟩ := ih has
    exact ⟨f :: fs, .cons hf hfs⟩

/-- Predicates that must all hold are emitted where each of them is. -/
theorem exists_emitAll {s : Scope} {ps : List Expr} (h : ∀ p ∈ ps, p.Translates Γ s) :
    ∃ f, emitAll Γ s ps = .ok f := by
  obtain ⟨fs, hfs⟩ := exists_each h
  exact ⟨_, emitAll_eq_ok.2 ⟨fs, hfs, rfl⟩⟩

section

variable (hrows : ∀ e ∈ q.rowExprs, e.Translates Γ q.scope)
include hrows

/-- The FROM clause is emitted where the keys of the join are. -/
theorem exists_emitFrom : ∃ f, q.emitFrom Γ = .ok f := by
  obtain ⟨hjoin, -, -⟩ := forall_rowExprs.1 hrows
  cases hj : q.join with
  | none => exact ⟨_, emitFrom_eq_ok.2 (.inl ⟨hj, rfl⟩)⟩
  | some j =>
    obtain ⟨a, ha⟩ := Expr.translates_operand.2 (hjoin j hj).1
    obtain ⟨b, hb⟩ := Expr.translates_operand.2 (hjoin j hj).2
    exact ⟨_, emitFrom_eq_ok.2 (.inr ⟨j, a, b, hj, ha, hb, rfl⟩)⟩

/-- The WHERE clause is emitted where its conditions are. -/
theorem exists_emitWhere : ∃ f, q.emitWhere Γ = .ok f := by
  by_cases hnil : q.filters = []
  · exact ⟨_, emitWhere_eq_ok.2 (.inl ⟨hnil, rfl⟩)⟩
  · obtain ⟨a, ha⟩ := exists_emitAll (forall_rowExprs.1 hrows).2.1
    exact ⟨_, emitWhere_eq_ok.2 (.inr ⟨hnil, a, ha, rfl⟩)⟩

theorem exists_eachKey : ∃ fs, Each (Expr.emit Γ q.scope) q.keys fs :=
  exists_each (forall_rowExprs.1 hrows).2.2

theorem exists_emitKeys : ∃ f, q.emitKeys Γ = .ok f := by
  cases hgrouped : q.isGrouped with
  | false => exact ⟨_, emitKeys_eq_ok.2 (.inl ⟨hgrouped, rfl⟩)⟩
  | true =>
    obtain ⟨fs, hfs⟩ := exists_eachKey hrows
    exact ⟨_, emitKeys_eq_ok.2 (.inr ⟨hgrouped, fs, hfs, rfl⟩)⟩

end

section

variable (hgroups : ∀ e ∈ q.groupExprs, e.Translates Γ q.groupScope)
include hgroups

/-- Without a projection the columns are those of the group keys, which are expressions on rows. -/
theorem exists_emitColumns (hrows : ∀ e ∈ q.rowExprs, e.Translates Γ q.scope) :
    ∃ f, q.emitColumns Γ = .ok f := by
  cases hprojected : q.isProjected with
  | true =>
    have hitems : ∀ i ∈ q.items, ∃ f, emitItem Γ q.groupScope i = .ok f := by
      intro i hi
      obtain ⟨a, ha⟩ := Expr.translates_operand.2 ((forall_groupExprs.1 hgroups).1 i hi)
      exact ⟨_, emitItem_eq_ok.2 ⟨a, ha, rfl⟩⟩
    obtain ⟨fs, hfs⟩ := exists_each hitems
    exact ⟨_, emitColumns_eq_ok.2 (.inl ⟨hprojected, fs, hfs, rfl⟩)⟩
  | false =>
    cases hgrouped : q.isGrouped with
    | true =>
      obtain ⟨fs, hfs⟩ := exists_eachKey hrows
      exact ⟨_, emitColumns_eq_ok.2 (.inr (.inl ⟨hprojected, hgrouped, fs, hfs, rfl⟩))⟩
    | false => exact ⟨_, emitColumns_eq_ok.2 (.inr (.inr ⟨hprojected, hgrouped, rfl⟩))⟩

/-- The HAVING clause is emitted where the conditions on groups are. -/
theorem exists_emitHaving : ∃ f, q.emitHaving Γ = .ok f := by
  by_cases hnone : q.isGrouped = false ∨ q.having = []
  · exact ⟨_, emitHaving_eq_ok.2 (.inl ⟨hnone, rfl⟩)⟩
  · obtain ⟨hgrouped, hhaving⟩ := not_or.1 hnone
    obtain ⟨a, ha⟩ := exists_emitAll (forall_groupExprs.1 hgroups).2.1
    exact ⟨_, emitHaving_eq_ok.2 (.inr ⟨Bool.not_eq_false _ ▸ hgrouped, hhaving, a, ha, rfl⟩)⟩

theorem exists_emitOrder : ∃ f, q.emitOrder Γ = .ok f := by
  by_cases hnil : q.order = []
  · exact ⟨_, emitOrder_eq_ok.2 (.inl ⟨hnil, rfl⟩)⟩
  · have hterms : ∀ t ∈ q.order, ∃ f, emitTerm Γ q.groupScope t = .ok f := by
      intro t ht
      obtain ⟨a, ha⟩ := (forall_groupExprs.1 hgroups).2.2 t ht
      exact ⟨_, emitTerm_eq_ok.2 ⟨a, ha, rfl⟩⟩
    obtain ⟨fs, hfs⟩ := exists_each hterms
    exact ⟨_, emitOrder_eq_ok.2 (.inr ⟨hnil, fs, hfs, rfl⟩)⟩

end

/-- **A query can be emitted when each of its expressions can**, each for itself in the scope of its
clause. Of the rest of the query only the tables that take part and the group keys matter for that.
Where there are no groups there must be no predicates on groups, which would not be emitted. -/
theorem translates_iff (hvalid : q.isGrouped = false → q.having = []) :
    q.Translates Γ ↔ (∀ e ∈ q.rowExprs, e.Translates Γ q.scope) ∧
      ∀ e ∈ q.groupExprs, e.Translates Γ q.groupScope := by
  constructor
  · intro h
    exact ⟨fun e he => h.rowExprs he, fun e he => h.groupExprs hvalid he⟩
  · rintro ⟨hrows, hgroups⟩
    obtain ⟨columns, hcolumns⟩ := exists_emitColumns hgroups hrows
    obtain ⟨a, ha⟩ := exists_emitFrom hrows
    obtain ⟨b, hb⟩ := exists_emitWhere hrows
    obtain ⟨keys, hkeys⟩ := exists_emitKeys hrows
    obtain ⟨having, hhaving⟩ := exists_emitHaving hgroups
    obtain ⟨order, horder⟩ := exists_emitOrder hgroups
    exact ⟨_, emit_eq_ok.2 ⟨columns, a ++ b, keys, having, order, hcolumns,
      emitRows_eq_ok.2 ⟨a, b, ha, hb, rfl⟩, hkeys, hhaving, horder, rfl⟩⟩

/-- A query that can be emitted stays so while declarations grow. -/
theorem Translates.keeps (h : q.Translates Γ) (hvalid : q.isGrouped = false → q.having = [])
    (hΔ : Γ.Keeps Δ) : q.Translates Δ := by
  obtain ⟨hrows, hgroups⟩ := (translates_iff hvalid).1 h
  exact (translates_iff hvalid).2
    ⟨fun e he => (hrows e he).keeps hΔ, fun e he => (hgroups e he).keeps hΔ⟩

/-- The check of a join key asks nothing of the declarations. -/
theorem checkJoinKey_keeps {side : JoinSide} {key : Expr} {owner : EntityId}
    (h : checkJoinKey Γ side key owner = .ok ()) : checkJoinKey Δ side key owner = .ok () :=
  checkJoinKey_eq_ok.2 (checkJoinKey_eq_ok.1 h)

/-- **A query that was built while declarations grew could have been built under the last of
them.** The induction is on the calls; each of them does under the later declarations what it did
under those of its time. -/
theorem Reachable.replay {C : Set Catalog} (h : q.Reachable C) (hC : ∀ Δ ∈ C, Δ.Keeps Γ) :
    q.Reachable {Γ} := by
  induction h with
  | source id => exact .source id
  | @filter Δ q q' p _ hΔ hp h ih =>
    obtain ⟨hungrouped, hpaged, rfl, htranslates⟩ := filter_eq_ok.1 h
    have hlater := htranslates.keeps ih.valid.having (hC Δ hΔ)
    exact .filter ih rfl hp (filter_eq_ok.2 ⟨hungrouped, hpaged, rfl, hlater⟩)
  | @orderBy Δ q q' key descending _ hΔ hk h ih =>
    obtain ⟨hpaged, rfl, htranslates⟩ := orderBy_eq_ok.1 h
    have hlater := htranslates.keeps ih.valid.having (hC Δ hΔ)
    exact .orderBy ih rfl hk (orderBy_eq_ok.2 ⟨hpaged, rfl, hlater⟩)
  | @thenBy Δ q q' key descending _ hΔ hk h ih =>
    obtain ⟨hordered, hpaged, rfl, htranslates⟩ := thenBy_eq_ok.1 h
    have hlater := htranslates.keeps ih.valid.having (hC Δ hΔ)
    exact .thenBy ih rfl hk (thenBy_eq_ok.2 ⟨hordered, hpaged, rfl, hlater⟩)
  | take _ h ih => exact .take ih h
  | skip _ h ih => exact .skip ih h
  | dedup _ ih => exact .dedup ih
  | @select Δ q q' items _ hΔ hi h ih =>
    obtain ⟨hitems, hprojected, hchecked, rfl, htranslates⟩ := select_eq_ok.1 h
    have hlater := htranslates.keeps ih.valid.having (hC Δ hΔ)
    exact .select ih rfl hi (select_eq_ok.2 ⟨hitems, hprojected, hchecked, rfl, hlater⟩)
  | @joinWith Δ q q' kind inner outerKey innerKey _ hΔ ho hi h ih =>
    obtain ⟨hjoin, hungrouped, hprojected, hne, houter, hinner, rfl, htranslates⟩ :=
      joinWith_eq_ok.1 h
    have hlater := htranslates.keeps ih.valid.having (hC Δ hΔ)
    exact .joinWith ih rfl ho hi (joinWith_eq_ok.2 ⟨hjoin, hungrouped, hprojected, hne,
      checkJoinKey_keeps houter, checkJoinKey_keeps hinner, rfl, hlater⟩)
  | @groupBy Δ q q' keys _ hΔ hk h ih =>
    obtain ⟨hkeys, hungrouped, hprojected, hordered, hdistinct, hchecked, rfl, htranslates⟩ :=
      groupBy_eq_ok.1 h
    -- rows that were not grouped before have no predicates on groups
    have hlater := htranslates.keeps (fun _ => ih.valid.having hungrouped) (hC Δ hΔ)
    exact .groupBy ih rfl hk (groupBy_eq_ok.2
      ⟨hkeys, hungrouped, hprojected, hordered, hdistinct, hchecked, rfl, hlater⟩)
  | @filterGroups Δ q q' p _ hΔ hp h ih =>
    obtain ⟨hgrouped, hpaged, rfl, htranslates⟩ := filterGroups_eq_ok.1 h
    have hvalid : q.isGrouped = false → q.having ++ [p.toPredicate] = [] := by
      rw [hgrouped]
      exact nofun
    have hlater := htranslates.keeps hvalid (hC Δ hΔ)
    exact .filterGroups ih rfl hp (filterGroups_eq_ok.2 ⟨hgrouped, hpaged, rfl, hlater⟩)

end Query

end SqlPlan
