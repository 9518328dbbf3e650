import SqlPlan.Proofs.Decimal
import SqlPlan.Proofs.Settled

/-!
# Every parameter at its placeholder

A statement has its SQL and its parameters apart, and whoever executes it pairs them again: the
k-th question mark outside quotes with the k-th parameter. Emission knows better where a value
belongs, and `Fragment.inlined` writes it right there. `Plan.ask_binds` says that the two agree for
every statement of every reachable plan, so no clause is bound out of its turn.
-/

namespace SqlPlan

/-! ## Numbers and windows -/

namespace Placeholder

/-- A digit is neither a quote nor a question mark. -/
theorem inert_of_isDigit {s : Bytes} (h : ∀ b ∈ s, Byte.isDigit b = true) : Inert s := by
  intro b hb
  have hdigit := h b hb
  revert hdigit
  rw [isQuote, Byte.isDigit]
  grind

theorem inert_natText (n : Nat) : Inert (Decimal.natText n) :=
  inert_of_isDigit fun _ hb => Decimal.isDigit_of_mem_natText hb

theorem inert_intText (n : Int) : Inert (Decimal.intText n) := by
  cases n with
  | ofNat n => exact inert_natText n
  | negSucc n => exact List.forall_mem_cons.2 ⟨by decide, inert_natText (n + 1)⟩

/-- So orderings and windows are inert but for the columns in them. -/
theorem inert_orderTexts : OrderTexts Inert := ⟨by decide, inert_natText⟩

/-- The clauses at the end of a set operation are inert where their columns are. -/
theorem inert_tailText {t : Tail} (h : ∀ o ∈ t.order, Inert o.column) : Inert t.text :=
  inert_orderTexts.tail (List.forall_mem_nil _) Inert.append h

end Placeholder

/-! ## Queries -/

namespace Query

open Fragment Placeholder

variable {Γ : Catalog} {q : Query} {f : Fragment}

/-- Every expression of the query is legible, and so are its tables and columns. -/
structure Legible (Γ : Catalog) (q : Query) : Prop where
  /-- the expressions -/
  exprs : ∀ e ∈ q.exprs, e.Legible Γ
  /-- the table of the rows -/
  source : Inert (Γ q.source).table
  /-- the table of the second entity -/
  inner : ∀ j, q.join = some j → Inert (Γ j.inner).table
  /-- the columns of the result -/
  items : ∀ i ∈ q.items, Inert i.column

/-- A query is legible where all its names are inert and its fragments of the caller are settled. -/
theorem legible_of_names (hnames : ∀ n ∈ q.names Γ, Inert n)
    (hraws : ∀ e ∈ q.exprs, ∀ r ∈ e.raws, (Piece.raw r.1 r.2).Settled) : q.Legible Γ := by
  have hspelled : q.Spelled Inert Settled Γ :=
    .of_names hnames fun e he r hr => List.forall_mem_singleton.2 (hraws e he r hr)
  exact ⟨fun e he => ⟨(hspelled.exprs e he).names, hraws e he⟩, hspelled.source, hspelled.inner,
    hspelled.items⟩

/-- What a legible query takes from elsewhere is settled. -/
theorem Legible.spelled (h : q.Legible Γ) : q.Spelled Inert Settled Γ :=
  ⟨fun e he => (h.exprs e he).spelled, h.source, h.inner, h.items⟩

theorem settled_emitRows (hq : q.Legible Γ) (h : q.emitRows Γ = .ok f) : f.Settled :=
  holds_emitRows composes_settled (by decide) hq.spelled h

/-- A legible query is emitted in settled pieces, orderings and windows being inert. -/
theorem settled_emit (hq : q.Legible Γ) (h : q.emit Γ = .ok f) : f.Settled :=
  holds_emit composes_settled (by decide) hq.spelled (fun _ => inert_orderTexts) h

/-! ### Questions -/

/-- A probe puts inert texts around the clauses for the rows. -/
theorem settled_emitProbe {test : Bytes} (htest : Inert test) (hq : q.Legible Γ)
    (h : q.emitProbe Γ test = .ok f) : f.Settled := by
  obtain ⟨rows, hrows, rfl⟩ := emitProbe_eq_ok.1 h
  have hhead : Inert (ascii "SELECT " ++ test ++ ascii "(SELECT 1 ") :=
    (Inert.append (by decide) htest).append (by decide)
  exact ((settled_ofText hhead).append (settled_emitRows hq hrows)).append (by decide)

/-- The count is taken of the rows or of the query as a subquery, both of which are settled. -/
theorem settled_emitCount (hq : q.Legible Γ) (h : q.emitCount Γ = .ok f) : f.Settled := by
  rcases emitCount_eq_ok.1 h with ⟨-, a, ha, rfl⟩ | ⟨-, rows, hrows, rfl⟩
  · exact (Settled.append (by decide) (settled_emit hq ha)).append (by decide)
  · exact Settled.append (by decide) (settled_emitRows hq hrows)

theorem settled_emitExists (hq : q.Legible Γ) (h : q.emitExists Γ = .ok f) : f.Settled := by
  rcases emitExists_eq_ok.1 h with ⟨-, a, ha, rfl⟩ | ⟨-, h⟩
  · exact (Settled.append (by decide) (settled_emit hq ha)).append (by decide)
  · exact settled_emitProbe (by decide) hq h

/-- A query with one more legible predicate is legible. -/
theorem Legible.filter {q' : Query} {p : Expr} (hq : q.Legible Γ) (hp : p.Legible Γ)
    (h : q.filter Γ p = .ok q') : q'.Legible Γ := by
  obtain ⟨-, -, rfl, -⟩ := filter_eq_ok.1 h
  refine ⟨?_, hq.source, hq.inner, hq.items⟩
  have hexprs := hq.exprs
  have hp' := hp.toPredicate
  simp only [Query.exprs, List.forall_mem_append, List.forall_mem_singleton] at hexprs ⊢
  grind

/-- The predicate of the question joins the filters of a legible query. -/
theorem settled_emitAny {p : Expr} (hq : q.Legible Γ) (hp : p.Legible Γ)
    (h : q.emitAny Γ p = .ok f) : f.Settled := by
  obtain ⟨-, q', hq', h⟩ := emitAny_eq_ok.1 h
  exact settled_emitExists (hq.filter hp hq') h

/-- So does the negation of one that is asked for all rows. -/
theorem settled_emitEvery {p : Expr} (hq : q.Legible Γ) (hp : p.Legible Γ)
    (h : q.emitEvery Γ p = .ok f) : f.Settled := by
  obtain ⟨-, q', hq', h⟩ := emitEvery_eq_ok.1 h
  -- the statement looks for a row that the predicate does not hold of
  have hnot : p.negate.Legible Γ := ⟨hp.toPredicate.names, hp.toPredicate.raws⟩
  exact settled_emitProbe (by decide) (hq.filter hnot hq') h

/-- A limit is no part of what legibility asks about. -/
theorem settled_emitLimited {n : Int} (hq : q.Legible Γ) (h : q.emitLimited Γ n = .ok f) :
    f.Settled :=
  settled_emit (q := q.limitTo n) ⟨hq.exprs, hq.source, hq.inner, hq.items⟩ h

end Query

/-! ## Plans -/

namespace Plan

open Fragment Placeholder

variable {Γ : Catalog} {p : Plan} {f : Fragment}

/-- The names that a plan may write: those of its queries and the columns it orders by. -/
def names (Γ : Catalog) : Plan → List Bytes
  | .query q => q.names Γ
  | .combine _ l r t => l.names Γ ++ r.names Γ ++ t.order.map (·.column)

/-- Every query of the plan is legible, and so are the columns it orders by. -/
def Legible (Γ : Catalog) : Plan → Prop
  | .query q => q.Legible Γ
  | .combine _ l r t => l.Legible Γ ∧ r.Legible Γ ∧ ∀ o ∈ t.order, Inert o.column

/-- The same holds of a plan. The induction is on the tree of the calls, whose names and fragments
are those of its parts. -/
theorem legible_of_names (hnames : ∀ n ∈ p.names Γ, Inert n)
    (hraws : ∀ e ∈ p.exprs, ∀ r ∈ e.raws, (Piece.raw r.1 r.2).Settled) : p.Legible Γ := by
  induction p with
  | query q => exact Query.legible_of_names hnames hraws
  | combine op l r t ihl ihr =>
    obtain ⟨hnames, horder⟩ := List.forall_mem_append.1 hnames
    obtain ⟨hnl, hnr⟩ := List.forall_mem_append.1 hnames
    obtain ⟨hrl, hrr⟩ := List.forall_mem_append.1 hraws
    exact ⟨ihl hnl hrl, ihr hnr hrr, List.forall_mem_map.1 horder⟩

theorem settled_wrap (needed : Bool) (hf : f.Settled) : (wrap needed f).Settled := by
  rw [wrap]
  split
  · exact (Settled.append (by decide) hf).append (by decide)
  · exact hf

/-- **A legible plan is emitted in settled pieces.** The induction is on the tree of the calls. -/
theorem settled_emit (hp : p.Legible Γ) (h : p.emit Γ = .ok f) : f.Settled := by
  induction p generalizing f with
  | query q => exact Query.settled_emit hp h
  | combine op l r t ihl ihr =>
    obtain ⟨hl, hr, ht⟩ := hp
    obtain ⟨a, b, ha, hb, rfl⟩ := emit_combine_eq_ok.1 h
    have hop : Inert (ascii " " ++ op.text ++ ascii " ") := by cases op <;> decide
    have hpair := (settled_wrap l.wrapsLeft (ihl hl ha)).append (settled_ofText hop)
    exact (hpair.append (settled_wrap r.wrapsRight (ihr hr hb))).append
      (settled_ofText (inert_tailText ht))

/-- The statement for every question about a legible plan is emitted in settled pieces. -/
theorem settled_ask {a : Question} (hp : p.Legible Γ) (ha : ∀ e ∈ a.exprs, e.Legible Γ)
    (h : p.ask Γ a = some (.ok f)) : f.Settled := by
  -- the number of rows is written out, not bound
  have hlimit : ∀ n : Int, Inert (ascii ") AS subquery LIMIT " ++ Decimal.intText n) := fun n =>
    Inert.append (by decide) (inert_intText n)
  cases p with
  | query q =>
    cases a with
    | rows => exact Query.settled_emit hp (Option.some.inj h)
    | count => exact Query.settled_emitCount hp (Option.some.inj h)
    | nonempty => exact Query.settled_emitExists hp (Option.some.inj h)
    | any e => exact Query.settled_emitAny hp (ha e (List.mem_singleton.2 rfl)) (Option.some.inj h)
    | every e =>
      exact Query.settled_emitEvery hp (ha e (List.mem_singleton.2 rfl)) (Option.some.inj h)
    | first n => exact Query.settled_emitLimited hp (Option.some.inj h)
  | combine op l r t =>
    cases a with
    | rows => exact settled_emit hp (Option.some.inj h)
    | count =>
      obtain ⟨a, ha, rfl⟩ := emitCount_combine_eq_ok.1 (Option.some.inj h)
      exact (Settled.append (by decide) (settled_emit hp ha)).append (by decide)
    | nonempty =>
      obtain ⟨a, ha, rfl⟩ := emitExists_combine_eq_ok.1 (Option.some.inj h)
      exact (Settled.append (by decide) (settled_emit hp ha)).append (by decide)
    | any e | every e => cases h
    | first n =>
      obtain ⟨a, ha, rfl⟩ := emitLimited_combine_eq_ok.1 (Option.some.inj h)
      exact (Settled.append (by decide) (settled_emit hp ha)).append (settled_ofText (hlimit n))

/-- **Every parameter is bound at its placeholder.** Whatever is asked of a reachable plan, the
statement has a placeholder for each parameter, and putting the parameters in their place in order
writes each one where emission bound it: names must be inert, and each fragment of the caller must
leave no quote open. -/
theorem ask_binds {C : Set Catalog} {a : Question} (hp : p.Reachable C)
    (ha : ∀ e ∈ a.exprs, e.Checked)
    (hnames : ∀ n ∈ p.names Γ ++ a.exprs.flatMap (Expr.names Γ), Inert n)
    (hraws : ∀ e ∈ p.exprs ++ a.exprs, ∀ r ∈ e.raws, scan none r.1 = none)
    (h : p.ask Γ a = some (.ok f)) :
    count f.statement.sql = f.statement.params.length ∧ f.statement.expanded = f.inlined := by
  obtain ⟨hpnames, hanames⟩ := List.forall_mem_append.1 hnames
  obtain ⟨hpraws, haraws⟩ := List.forall_mem_append.1 hraws
  -- the placeholders of a fragment were counted when it was built, its quotes were not
  have hplan : p.Legible Γ := by
    refine legible_of_names hpnames ?_
    intro e he r hr
    exact ⟨Expr.count_of_raw? (hp.checked e he r hr), hpraws e he r hr⟩
  have hquestion : ∀ e ∈ a.exprs, e.Legible Γ := by
    intro e he
    refine ⟨fun n hn => hanames n (List.mem_flatMap.2 ⟨e, he, hn⟩), ?_⟩
    intro r hr
    exact ⟨Expr.count_of_raw? (ha e he r hr), haraws e he r hr⟩
  exact (settled_ask hplan hquestion h).expand_eq_inlined

/-! ### A union with a fragment of the caller -/

/-- A table of orders with a label and a total. -/
def orders : Catalog :=
  .single (ascii "orders") [(ascii "Label", ascii "label"), (ascii "Total", ascii "total")]

/-- The orders that the caller describes, with a quoted question mark in the description. -/
def described : Query :=
  { source := 0
    filters := [.raw (ascii "label = '?' OR label = ?") [.text (ascii "it's")]] }

/-- The number of orders for each total, where it is above seven, counted from one on. -/
def grouped : Query :=
  { source := 0
    filters := [.compare .gt (.column 0 (ascii "Total")) (.literal (.integer 7))]
    keys := [.arith .add (.column 0 (ascii "Total")) (.literal (.integer 1))]
    having := [.compare .ge .countRows (.literal (.integer 2))] }

theorem reachable_union :
    (compose (.query described) .unionAll (.query grouped)).Reachable {orders} := by
  have hraw : (Expr.raw (ascii "label = '?' OR label = ?") [.text (ascii "it's")]).Checked := by
    intro r hr
    obtain rfl := List.mem_singleton.1 hr
    rfl
  have hdescribed : described.Reachable {orders} :=
    .filter (Γ := orders) (.source 0) rfl hraw rfl
  have habove := Expr.checked_of_raws
    (.compare .gt (.column 0 (ascii "Total")) (.literal (.integer 7))) rfl
  have hkeys : ∀ k ∈ [Expr.arith .add (.column 0 (ascii "Total")) (.literal (.integer 1))],
      k.Checked := List.forall_mem_singleton.2 (Expr.checked_of_raws _ rfl)
  have hseveral := Expr.checked_of_raws (.compare .ge .countRows (.literal (.integer 2))) rfl
  have hfiltered := Query.Reachable.filter (C := {orders}) (Γ := orders) (.source 0) rfl habove rfl
  have hgrouped : grouped.Reachable {orders} :=
    .filterGroups (Γ := orders) (hfiltered.groupBy (Γ := orders) rfl hkeys rfl) rfl hseveral rfl
  exact .combine (.query hdescribed) (.query hgrouped) .none

/-- The statement that counts a union: a quoted question mark of the caller is passed over. -/
theorem ask_binds_union :
    ∃ f, (compose (.query described) .unionAll (.query grouped)).ask orders .count =
        some (.ok f) ∧
      count f.statement.sql = f.statement.params.length ∧ f.statement.expanded = f.inlined :=
  ⟨_, rfl, ask_binds (Γ := orders) (a := .count) reachable_union (List.forall_mem_nil _)
    (by decide) (by decide) rfl⟩

end Plan

end SqlPlan
