import SqlPlan.Proofs.GrowingDeclarations

/-!
# The order of building calls

Filters, an ordering, a projection and `dedup` each add to a clause of their own, and each such call
emits the whole query that it gives. Yet none of them can get in the way of another:
`Query.add_eq_ok` says that a call succeeds when it fits the query (`Addition.Fits`), which asks for
its own expressions to be emitted in the scope of their clause, and `fits_extend` that what the
others add does not matter for that.

So calls of these kinds may change places. `Query.addAll_eq_ok` says what a list of them comes to,
and `Query.Reachable.addAll_perm` that the order of the list matters to its filters only, which keep
their places among themselves.
-/

namespace SqlPlan

namespace Query

/-- A call that adds to a clause of a query. -/
inductive Addition where
  /-- one more predicate on rows -/
  | filter (p : Expr)
  /-- one more predicate on groups -/
  | filterGroups (p : Expr)
  /-- an ordering, in place of any before -/
  | orderBy (key : Expr) (descending : Bool)
  /-- a projection -/
  | select (items : List Item)
  /-- equal rows once -/
  | dedup
deriving DecidableEq

/-- Makes a call. -/
def add (Γ : Catalog) (q : Query) : Addition → Except TranslationError Query
  | .filter p => q.filter Γ p
  | .filterGroups p => q.filterGroups Γ p
  | .orderBy key descending => q.orderBy Γ key descending
  | .select items => q.select Γ items
  | .dedup => .ok q.dedup

/-- Makes several calls, one after the other. -/
def addAll (Γ : Catalog) (q : Query) : List Addition → Except TranslationError Query
  | [] => .ok q
  | c :: cs => do (← q.add Γ c).addAll Γ cs

namespace Addition

/-- The predicate on rows that a call adds. -/
def filter? : Addition → Option Expr
  | .filter p => some p.toPredicate
  | _ => none

/-- The predicate on groups that a call adds. -/
def groupFilter? : Addition → Option Expr
  | .filterGroups p => some p.toPredicate
  | _ => none

/-- The ordering that a call sets. -/
def order? : Addition → Option (List OrderTerm)
  | .orderBy key descending => some [⟨key, descending⟩]
  | _ => none

/-- The projection that a call sets. -/
def items? : Addition → Option (List Item)
  | .select items => some items
  | _ => none

/-- Does the call ask for equal rows once? -/
def isDedup : Addition → Bool
  | .dedup => true
  | _ => false

/-- Does the call add a predicate? -/
def isFilter : Addition → Bool
  | .filter _ | .filterGroups _ => true
  | _ => false

/-- What adds no predicate has none. -/
theorem filters_eq_none {c : Addition} (hc : c.isFilter = false) :
    c.filter? = none ∧ c.groupFilter? = none := by
  cases c with
  | filter | filterGroups => cases hc
  | orderBy | select | dedup => exact ⟨rfl, rfl⟩

/-- **A call fits a query**: the query has groups, or has none, as the call needs it, and what the
call adds can be emitted in the scope of its clause. -/
def Fits (Γ : Catalog) (q : Query) : Addition → Prop
  | .filter p => q.isGrouped = false ∧ p.toPredicate.Translates Γ q.scope
  | .filterGroups p => q.isGrouped = true ∧ p.toPredicate.Translates Γ q.groupScope
  | .orderBy key _ => key.Translates Γ q.groupScope
  | .select items => items.isEmpty = false ∧ q.isProjected = false ∧ checkItems [] items = .ok () ∧
      ∀ i ∈ items, i.value.Translates Γ q.groupScope
  | .dedup => True

end Addition

/-- The query with what a call adds, unchecked. -/
def extend (q : Query) : Addition → Query
  | .filter p => { q with filters := q.filters ++ [p.toPredicate] }
  | .filterGroups p => { q with having := q.having ++ [p.toPredicate] }
  | .orderBy key descending => { q with order := [⟨key, descending⟩] }
  | .select items => { q with items := items }
  | .dedup => q.dedup

/-- The query with what several calls add. -/
def extendAll (q : Query) (cs : List Addition) : Query :=
  { q with
    filters := q.filters ++ cs.filterMap Addition.filter?
    having := q.having ++ cs.filterMap Addition.groupFilter?
    order := (cs.filterMap Addition.order?).getLast?.getD q.order
    items := (cs.filterMap Addition.items?).getLast?.getD q.items
    distinct := q.distinct || cs.any Addition.isDedup }

variable {Γ : Catalog} {q q' : Query} {c d : Addition} {cs cs' : List Addition}

@[simp] theorem extendAll_nil : q.extendAll [] = q := by
  simp [extendAll]

/-- What is set later takes the place of what was set before. -/
theorem extendAll_cons : q.extendAll (c :: cs) = (q.extend c).extendAll cs := by
  cases c <;>
    simp [extend, extendAll, dedup, Addition.filter?, Addition.groupFilter?, Addition.order?,
      Addition.items?, Addition.isDedup, List.filterMap_cons, List.getLast?_cons]

/-! ## One call -/

/-- **A query is open to additions**: it can be emitted, its predicates on groups are on groups that
there are, and it has no window. -/
structure IsOpen (Γ : Catalog) (q : Query) : Prop where
  /-- it can be emitted -/
  translates : q.Translates Γ
  /-- rows that are not grouped have no predicate on groups -/
  having : q.isGrouped = false → q.having = []
  /-- there is no window -/
  unpaged : q.paging.isPaged = false

/-- A filter more is emitted where it translates on its own, among the rows. -/
theorem translates_filter (hq : q.IsOpen Γ) (p : Expr) :
    Translates Γ { q with filters := q.filters ++ [p] } ↔ p.Translates Γ q.scope := by
  obtain ⟨hrows, hgroups⟩ := (translates_iff hq.having).1 hq.translates
  obtain ⟨hjoin, hfilters, hkeys⟩ := forall_rowExprs.1 hrows
  rw [translates_iff (by exact hq.having), forall_rowExprs, List.forall_mem_append,
    List.forall_mem_singleton]
  constructor
  · rintro ⟨⟨-, ⟨-, hp⟩, -⟩, -⟩
    exact hp
  · intro hp
    exact ⟨⟨hjoin, ⟨hfilters, hp⟩, hkeys⟩, hgroups⟩

/-- A condition on groups more is emitted where it translates among the groups. -/
theorem translates_filterGroups (hq : q.IsOpen Γ) (hgrouped : q.isGrouped = true) (p : Expr) :
    Translates Γ { q with having := q.having ++ [p] } ↔ p.Translates Γ q.groupScope := by
  obtain ⟨hrows, hgroups⟩ := (translates_iff hq.having).1 hq.translates
  obtain ⟨hitems, hhaving, horder⟩ := forall_groupExprs.1 hgroups
  have hvalid : isGrouped { q with having := q.having ++ [p] } = false → q.having ++ [p] = [] :=
    fun hungrouped => absurd (hgrouped.symm.trans hungrouped) Bool.true_eq_false_eq_False
  rw [translates_iff hvalid, forall_groupExprs, List.forall_mem_append, List.forall_mem_singleton]
  constructor
  · rintro ⟨-, -, ⟨-, hp⟩, -⟩
    exact hp
  · intro hp
    exact ⟨hrows, hitems, ⟨hhaving, hp⟩, horder⟩

theorem translates_orderBy (hq : q.IsOpen Γ) (t : OrderTerm) :
    Translates Γ { q with order := [t] } ↔ t.key.Translates Γ q.groupScope := by
  obtain ⟨hrows, hgroups⟩ := (translates_iff hq.having).1 hq.translates
  obtain ⟨hitems, hhaving, -⟩ := forall_groupExprs.1 hgroups
  rw [translates_iff (by exact hq.having), forall_groupExprs, List.forall_mem_singleton]
  constructor
  · rintro ⟨-, -, -, ht⟩
    exact ht
  · intro ht
    exact ⟨hrows, hitems, hhaving, ht⟩

/-- The projection before, if there is one, does not matter. -/
theorem translates_select (hq : q.IsOpen Γ) (items : List Item) :
    Translates Γ { q with items := items } ↔ ∀ i ∈ items, i.value.Translates Γ q.groupScope := by
  obtain ⟨hrows, hgroups⟩ := (translates_iff hq.having).1 hq.translates
  obtain ⟨-, hhaving, horder⟩ := forall_groupExprs.1 hgroups
  rw [translates_iff (by exact hq.having), forall_groupExprs]
  constructor
  · rintro ⟨-, hitems, -⟩
    exact hitems
  · intro hitems
    exact ⟨hrows, hitems, hhaving, horder⟩

/-- **A call on an open query succeeds when it fits**, and gives what it adds to. -/
theorem add_eq_ok (hq : q.IsOpen Γ) : q.add Γ c = .ok q' ↔ c.Fits Γ q ∧ q' = q.extend c := by
  -- every call but the last validates what it adds to, and that comes down to the part it adds
  have hextend : ∀ {q₁ : Query} {P : Prop}, (q₁.Translates Γ ↔ P) →
      (q' = q₁ ∧ q'.Translates Γ ↔ P ∧ q' = q₁) := by
    intro q₁ P hP
    rw [and_comm, and_congr_left]
    rintro rfl
    exact hP
  cases c with
  | filter p =>
    rw [add, filter_eq_ok, hextend (translates_filter hq _), Addition.Fits, extend]
    simp [hq.unpaged, and_assoc]
  | filterGroups p =>
    rw [add, filterGroups_eq_ok, Addition.Fits, extend, and_assoc, and_congr_right_iff]
    intro hgrouped
    rw [hextend (translates_filterGroups hq hgrouped _)]
    simp [hq.unpaged]
  | orderBy key descending =>
    rw [add, orderBy_eq_ok, hextend (translates_orderBy hq _), Addition.Fits, extend]
    simp [hq.unpaged]
  | select items =>
    rw [add, select_eq_ok, hextend (translates_select hq _), Addition.Fits, extend]
    simp [and_assoc]
  | dedup => rw [add, extend, Addition.Fits, true_and, Except.ok.injEq, eq_comm]

/-- An open query stays open when a call adds to it. -/
theorem IsOpen.extend (hq : q.IsOpen Γ) (hc : c.Fits Γ q) : (q.extend c).IsOpen Γ := by
  cases c with
  | filter p => exact ⟨(translates_filter hq _).2 hc.2, hq.having, hq.unpaged⟩
  | filterGroups p =>
    refine ⟨(translates_filterGroups hq hc.1 _).2 hc.2, fun hungrouped => ?_, hq.unpaged⟩
    exact absurd (hc.1.symm.trans hungrouped) Bool.true_eq_false_eq_False
  | orderBy key descending => exact ⟨(translates_orderBy hq _).2 hc, hq.having, hq.unpaged⟩
  | select items => exact ⟨(translates_select hq _).2 hc.2.2.2, hq.having, hq.unpaged⟩
  | dedup => exact ⟨hq.translates.windowed q.paging true, hq.having, hq.unpaged⟩

/-- **What one call adds does not matter to another**, unless both are projections: neither the
tables that take part nor the group keys change. -/
theorem fits_extend (h : c.items? = none ∨ d.items? = none) :
    d.Fits Γ (q.extend c) ↔ d.Fits Γ q := by
  cases c with
  | select items =>
    cases d with
    | select items' => simp [Addition.items?] at h
    | _ => rfl
  | _ => cases d <;> rfl

/-! ## Several calls -/

/-- **Calls one after the other succeed when each fits the query before them all**, if only one of
them is a projection. -/
theorem addAll_eq_ok (hq : q.IsOpen Γ) (hselect : (cs.filterMap Addition.items?).length ≤ 1) :
    q.addAll Γ cs = .ok q' ↔ (∀ c ∈ cs, c.Fits Γ q) ∧ q' = q.extendAll cs := by
  induction cs generalizing q with
  | nil => simp [addAll, eq_comm]
  | cons c cs ih =>
    rw [addAll, Except.bind_eq_ok, List.forall_mem_cons, extendAll_cons]
    -- of two projections one would come after the other
    have hothers : ∀ d ∈ cs, c.items? = none ∨ d.items? = none := by
      intro d hd
      by_contra hboth
      obtain ⟨hc, hd'⟩ := not_or.1 hboth
      obtain ⟨items, hc⟩ := Option.ne_none_iff_exists'.1 hc
      obtain ⟨items', hd'⟩ := Option.ne_none_iff_exists'.1 hd'
      have hmem : items' ∈ cs.filterMap Addition.items? := List.mem_filterMap.2 ⟨d, hd, hd'⟩
      have hpos := List.length_pos_of_mem hmem
      rw [List.filterMap_cons_some hc, List.length_cons] at hselect
      omega
    have hselect' : (cs.filterMap Addition.items?).length ≤ 1 := by
      refine le_trans (List.Sublist.length_le ?_) hselect
      exact (List.sublist_cons_self c cs).filterMap _
    have hfits : (∀ d ∈ cs, d.Fits Γ (q.extend c)) ↔ ∀ d ∈ cs, d.Fits Γ q :=
      forall₂_congr fun d hd => fits_extend (hothers d hd)
    constructor
    · rintro ⟨q₁, hadd, hrest⟩
      obtain ⟨hc, rfl⟩ := (add_eq_ok hq).1 hadd
      obtain ⟨hcs, rfl⟩ := (ih (hq.extend hc) hselect').1 hrest
      exact ⟨⟨hc, hfits.1 hcs⟩, rfl⟩
    · rintro ⟨⟨hc, hcs⟩, rfl⟩
      exact ⟨_, (add_eq_ok hq).2 ⟨hc, rfl⟩, (ih (hq.extend hc) hselect').2 ⟨hfits.2 hcs, rfl⟩⟩

/-- Lists with at most one member that have the same members are the same. -/
theorem eq_of_perm_of_length_le_one {α : Type} {as bs : List α} (h : as.Perm bs)
    (hlength : as.length ≤ 1) : as = bs := by
  match as, hlength with
  | [], _ => exact (List.nil_perm.1 h).symm
  | [a], _ => exact (List.singleton_perm.1 h)

/-- What is taken from the filters of a list depends on its filters only. -/
theorem filterMap_eq_of_filters {g : Addition → Option Expr}
    (hg : ∀ c, c.isFilter = false → g c = none)
    (hfilters : cs.filter Addition.isFilter = cs'.filter Addition.isFilter) :
    cs.filterMap g = cs'.filterMap g := by
  have honly : ∀ cs : List Addition,
      (cs.filter Addition.isFilter).filterMap g = cs.filterMap g := by
    intro cs
    rw [List.filterMap_filter]
    congr 1
    funext c
    cases hc : c.isFilter with
    | true => rfl
    | false => simp [hg c hc]
  rw [← honly cs, hfilters, honly]

/-- **The order matters to filters only**: what a list of calls adds is what another order of it
adds, if the filters are in the same order in both. -/
theorem extendAll_perm (hperm : cs.Perm cs')
    (hfilters : cs.filter Addition.isFilter = cs'.filter Addition.isFilter)
    (horder : (cs.filterMap Addition.order?).length ≤ 1)
    (hselect : (cs.filterMap Addition.items?).length ≤ 1) : q.extendAll cs = q.extendAll cs' := by
  have hrows := filterMap_eq_of_filters (fun _ hc => (Addition.filters_eq_none hc).1) hfilters
  have hgroups := filterMap_eq_of_filters (fun _ hc => (Addition.filters_eq_none hc).2) hfilters
  have horders := eq_of_perm_of_length_le_one (hperm.filterMap Addition.order?) horder
  have hitems := eq_of_perm_of_length_le_one (hperm.filterMap Addition.items?) hselect
  have hdistinct : cs.any Addition.isDedup = cs'.any Addition.isDedup := hperm.any_eq
  rw [extendAll, extendAll, hrows, hgroups, horders, hitems, hdistinct]

/-- **Calls on a reachable query may change places.** Where a list of calls has at most one ordering
and at most one projection, and there is no window, another order of the list in which the filters
keep their places among themselves ends in the same query, or fails as the list does. The list
succeeds exactly when each of its calls would by itself. -/
theorem Reachable.addAll_perm {C : Set Catalog} (h : q.Reachable C) (hC : ∀ Δ ∈ C, Δ.Keeps Γ)
    (hlimit : q.paging.limit = none) (hoffset : q.paging.offset = none) (hperm : cs.Perm cs')
    (hfilters : cs.filter Addition.isFilter = cs'.filter Addition.isFilter)
    (horder : (cs.filterMap Addition.order?).length ≤ 1)
    (hselect : (cs.filterMap Addition.items?).length ≤ 1) :
    ((∃ q', q.addAll Γ cs = .ok q' ∧ q.addAll Γ cs' = .ok q') ∨
      ∃ err err', q.addAll Γ cs = .error err ∧ q.addAll Γ cs' = .error err') ∧
    ((∃ q', q.addAll Γ cs = .ok q') ↔ ∀ c ∈ cs, ∃ q', q.add Γ c = .ok q') := by
  have hvalid := (h.replay hC).valid
  have hq : q.IsOpen Γ :=
    ⟨hvalid.translates, hvalid.having, by rw [Paging.isPaged, hlimit, hoffset]; rfl⟩
  have hselect' : (cs'.filterMap Addition.items?).length ≤ 1 := by
    rwa [← (hperm.filterMap Addition.items?).length_eq]
  -- both orders ask for the same calls to fit, and extend the query to the same one
  have hsame : ∀ q', q.addAll Γ cs = .ok q' ↔ q.addAll Γ cs' = .ok q' := by
    intro q'
    rw [addAll_eq_ok hq hselect, addAll_eq_ok hq hselect',
      extendAll_perm hperm hfilters horder hselect]
    simp only [hperm.mem_iff]
  constructor
  · cases hrun : q.addAll Γ cs with
    | ok q' => exact .inl ⟨q', rfl, (hsame q').1 hrun⟩
    | error err =>
      cases hrun' : q.addAll Γ cs' with
      | ok q' => exact nomatch hrun.symm.trans ((hsame q').2 hrun')
      | error err' => exact .inr ⟨err, err', rfl, rfl⟩
  · constructor
    · rintro ⟨q', hrun⟩ c hc
      exact ⟨_, (add_eq_ok hq).2 ⟨((addAll_eq_ok hq hselect).1 hrun).1 c hc, rfl⟩⟩
    · intro hcalls
      refine ⟨_, (addAll_eq_ok hq hselect).2 ⟨fun c hc => ?_, rfl⟩⟩
      obtain ⟨q', hadd⟩ := hcalls c hc
      exact ((add_eq_ok hq).1 hadd).1

/-! ### Cities by their customers -/

/-- The cities of all customers. -/
def cities : Query := { source := 0, keys := [.column 0 (ascii "City")] }

/-- More than one customer, and fewer than nine. -/
def someCustomers : List Addition :=
  [.filterGroups (.compare .gt .countRows (.literal (.integer 1))),
    .filterGroups (.compare .lt .countRows (.literal (.integer 9)))]

/-- The number of customers for each city, by city, and equal rows once. -/
def counted : List Addition :=
  [.orderBy (.key none) true, .select [⟨ascii "city", .key none⟩, ⟨ascii "customers", .countRows⟩],
    .dedup]

theorem reachable_cities : cities.Reachable {shop} := by
  have hcity : ∀ k ∈ cities.keys, k.Checked :=
    List.forall_mem_singleton.2 (Expr.checked_of_raws _ rfl)
  exact @Reachable.groupBy {shop} shop _ _ _ (.source 0) rfl hcity rfl

/-- It does not matter whether groups are filtered before or after they are counted. -/
theorem addAll_perm_cities :
    ∃ q', cities.addAll shop (someCustomers ++ counted) = .ok q' ∧
      cities.addAll shop (counted ++ someCustomers) = .ok q' := by
  obtain ⟨hsame, hcalls⟩ := reachable_cities.addAll_perm (Γ := shop)
    (by rintro Δ rfl; exact Catalog.keeps_refl _) rfl rfl
    (@List.perm_append_comm _ someCustomers counted) (by decide) (by decide) (by decide)
  have hsucceeds : ∃ q', cities.addAll shop (someCustomers ++ counted) = .ok q' := by
    refine hcalls.2 fun c hc => ?_
    simp only [someCustomers, counted, List.cons_append, List.nil_append, List.mem_cons,
      List.not_mem_nil, or_false] at hc
    rcases hc with rfl | rfl | rfl | rfl | rfl
    all_goals exact ⟨_, rfl⟩
  rcases hsame with hsame | ⟨err, -, herr, -⟩
  · exact hsame
  · obtain ⟨q', hq'⟩ := hsucceeds
    exact nomatch herr.symm.trans hq'

end Query

end SqlPlan
