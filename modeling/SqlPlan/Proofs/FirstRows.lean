import SqlPlan.Proofs.SetReader
import SqlPlan.Proofs.TerminalOperation
import SqlPlan.Scripted.Backend

/-!
# The first rows of a plan

The first row of a plan, and the only one, are read from a statement that asks for no more rows than
are needed to tell: one for the first, two for the only. The limit of that statement meets the
window that the plan may have of its own. A query has one window, whose limit is lowered; a set
operation is wrapped as a table, of which the first rows are taken.

`Plan.Limits` says what the statement looks like, and `Plan.Understood` what it takes for statements
with windows to be read as they are meant. The main statement is `Plan.Reachable.first_rows`: the
statement is made as `Limits` says and gives the first rows of the whole, and an executor that
answers it with them has `first` and `single` agree with the list of all rows.
-/

namespace SqlPlan

open Fragment

variable {σ κ α : Type} {Γ : Catalog}

/-! ## Windows -/

namespace Paging

/-- The rows in a window. -/
def window (w : Paging) (rows : List α) : List α :=
  let rest := rows.drop (w.offset.getD 0)
  w.limit.elim rest rest.take

/-- A window with no more than `n` rows. -/
def atMost (w : Paging) (n : Nat) : Paging := { w with limit := some (w.limit.elim n (min n)) }

/-- A limit that is no negative number leaves the smaller of it and the limit there was. -/
theorem limitTo_natCast (w : Paging) (n : Nat) : w.limitTo n = w.atMost n := by
  obtain ⟨_ | m, offset⟩ := w
  · rfl
  · rw [limitTo, atMost]
    by_cases hn : (n : Int) < m
    · have hmin : min n m = n := by omega
      simp only [hn, if_true, Option.elim_some, hmin]
      rfl
    · have hmin : min n m = m := by omega
      simp only [hn, if_false, Option.elim_some, hmin]

/-- The first rows of a window are those of the window with a lower limit. -/
theorem window_atMost (w : Paging) (n : Nat) (rows : List α) :
    (w.atMost n).window rows = (w.window rows).take n := by
  obtain ⟨_ | m, offset⟩ := w
  · rfl
  · exact List.take_take.symm

end Paging

/-! ## Statements of the first rows -/

/-- A query is its clauses and, after them, its window. -/
theorem Query.exists_head {q : Query} {f : Fragment} (hf : q.emit Γ = .ok f) :
    ∃ head : Fragment, ∀ w : Paging,
      Query.emit { q with paging := w } Γ = .ok (head ++ ofText w.text) := by
  obtain ⟨columns, rows, keys, having, order, hcolumns, hrows, hkeys, hhaving, horder, -⟩ :=
    Query.emit_eq_ok.1 hf
  exact ⟨word "SELECT " ++ (if q.distinct then word "DISTINCT " else []) ++ columns ++ word " " ++
      rows ++ keys ++ having ++ order,
    fun _ => Query.emit_eq_ok.2
      ⟨columns, rows, keys, having, order, hcolumns, hrows, hkeys, hhaving, horder, rfl⟩⟩

namespace Plan

/-- The statement of a plan as a table. -/
def asTable (st : Statement) : Statement :=
  ⟨ascii "SELECT * FROM (" ++ st.sql ++ ascii ") AS subquery", st.params⟩

/-- **How the statement of the first `n` rows differs** from that of all rows, with the same
parameters: in a query only by its limit, which is lowered to `n` or set to it; a set operation is
taken as a table, with a limit of `n`. -/
def Limits (Γ : Catalog) (n : Nat) (st first : Statement) : Plan → Prop
  | .query q => ∃ head params,
    Query.compile { q with paging := {} } Γ = .ok ⟨head, params⟩ ∧
    st = ⟨head ++ q.paging.text, params⟩ ∧
    first = ⟨head ++ Paging.text
      { limit := some (q.paging.limit.elim n (min n)), offset := q.paging.offset }, params⟩
  | .combine .. =>
    first = ⟨(asTable st).sql ++ (ascii " LIMIT " ++ Decimal.natText n), st.params⟩

/-- The rows of a statement with a window after it are those in the window. -/
def ReadsWindows (rows : Statement → List α) (st : Statement) : Prop :=
  ∀ w : Paging, rows ⟨st.sql ++ w.text, st.params⟩ = w.window (rows st)

/-- **Statements of the plan are read as they are meant.** A window after a query that has none is
read as a window; a set operation as a table has its rows, and a window after the table is read as a
window. -/
def Understood (Γ : Catalog) (rows : Statement → List α) (p : Plan) : Prop :=
  match p with
  | .query q => ∀ st, Query.compile { q with paging := {} } Γ = .ok st → ReadsWindows rows st
  | .combine .. => ∀ st, p.compile Γ = .ok st →
    rows (asTable st) = rows st ∧ ReadsWindows rows (asTable st)

/-- A plan that is emitted can be limited, and the limited statement differs from its own as it
should. -/
theorem exists_limits {p : Plan} {f : Fragment} (hf : p.emit Γ = .ok f) (n : Nat) :
    ∃ first, p.limitedStatement Γ n = .ok first ∧ p.Limits Γ n f.statement first := by
  cases p with
  | query q =>
    obtain ⟨head, hhead⟩ := Query.exists_head hf
    have hfirst : Query.emitLimited q Γ n = .ok (head ++ ofText (q.paging.atMost n).text) := by
      rw [Query.emitLimited, Query.limitTo, Paging.limitTo_natCast]
      exact hhead _
    obtain rfl : head ++ ofText q.paging.text = f := Except.ok.inj ((hhead q.paging).symm.trans hf)
    refine ⟨_, Fragment.map_statement hfirst, head.sql, head.params, ?_, ?_, ?_⟩
    · rw [Query.compile, hhead]
      simp [Fragment.statement, Paging.text]
    · simp [Fragment.statement]
    · simp [Fragment.statement, Paging.atMost]
  | combine op l r t =>
    refine ⟨_, Fragment.map_statement (emitLimited_combine_eq_ok.2 ⟨f, hf, rfl⟩), ?_⟩
    have hend : ascii ") AS subquery LIMIT " ++ Decimal.intText n =
        ascii ") AS subquery" ++ (ascii " LIMIT " ++ Decimal.natText n) := rfl
    simp [Limits, asTable, Fragment.statement, word, hend]

/-- The statement of the first rows is read as the first rows of the whole. -/
theorem Limits.rows_eq {p : Plan} {n : Nat} {st first : Statement} (h : p.Limits Γ n st first)
    (hst : p.compile Γ = .ok st) {rows : Statement → List α} (hrows : p.Understood Γ rows) :
    rows first = (rows st).take n := by
  cases p with
  | query q =>
    obtain ⟨head, params, hhead, rfl, rfl⟩ := h
    have hwindow := hrows _ hhead
    rw [hwindow q.paging, ← Paging.window_atMost]
    exact hwindow (q.paging.atMost n)
  | combine op l r t =>
    obtain ⟨htable, hwindow⟩ := hrows st hst
    obtain rfl := h
    rw [← htable]
    have hlimit : Paging.text { limit := some n } = ascii " LIMIT " ++ Decimal.natText n :=
      List.append_nil _
    rw [← hlimit]
    exact hwindow { limit := some n }

end Plan

/-! ## Reading the first rows -/

namespace Handle

/-- **The executor answers a statement of the query with some rows**, as the session is. -/
def Answers (x : Handle σ κ) (Γ : Catalog) (t : Token σ) (s : SessionState σ) (st : Statement)
    (rows : List Row) : Prop :=
  ∃ r s', (x.run Γ st x.resultType t).outcome s = (.ok r, s') ∧ r.rows = rows

variable {x : Handle σ κ} {t : Token σ} {s : SessionState σ} {st : Statement} {rows : List Row}
  {shape : Entity} {records : List Record}

/-- Where the executor is handed the statement itself, it answers with what it executes it to. -/
theorem answers_of_execute {b : Backend σ κ} (hb : x.backend = some b) {q : Compiled}
    {prepared : SessionState σ} {r : ResultSet}
    (hprepare : (x.prepare Γ st x.resultType).outcome s = (.ok q, prepared))
    (hq : q.statement = st)
    (hexecute : ((b.execute st t).outcome prepared.executor).1 = .ok r) :
    x.Answers Γ t s st r.rows := by
  have hattached : x.attached = .ok b := by rw [attached, hb]
  refine ⟨r, _, Prod.ext ?_ rfl, rfl⟩
  rw [run]
  simp only [Action.outcome_bind, Action.outcome_ofExcept, hattached, hprepare, hq]
  exact hexecute

/-- The records of an answer whose rows can all be read. -/
theorem result_rows (h : x.Answers Γ t s st rows)
    (hrecords : shape.materializeAll rows = .ok records)
    {built : Except TranslationError Statement} (hbuilt : built = .ok st) :
    ((x.rows Γ shape built t).outcome s).1 = .ok records := by
  obtain ⟨r, s', hrun, rfl⟩ := h
  subst hbuilt
  refine (Action.result_bind (a := x.run Γ st x.resultType t) (fun _ _ => rfl) s).trans ?_
  rw [hrun]
  exact hrecords

/-- The first row, if there is one, is the first of at most one that is asked for. -/
theorem result_first? : ((x.first? Γ shape t).outcome s).1 =
    ((x.rows Γ shape (x.plan.limitedStatement Γ 1) t).outcome s).1 >>=
      fun records => .ok records.head? :=
  Action.result_bind (a := x.rows Γ shape (x.plan.limitedStatement Γ 1) t) (fun _ _ => rfl) s

theorem result_first : ((x.first Γ shape t).outcome s).1 =
    ((x.first? Γ shape t).outcome s).1 >>= someRow :=
  Action.result_bind (a := x.first? Γ shape t) (fun _ _ => rfl) s

/-- A second row is asked for to see whether the first is the only one. -/
theorem result_single? : ((x.single? Γ shape t).outcome s).1 =
    ((x.rows Γ shape (x.plan.limitedStatement Γ 2) t).outcome s).1 >>= onlyRow :=
  Action.result_bind (a := x.rows Γ shape (x.plan.limitedStatement Γ 2) t) (fun _ _ => rfl) s

theorem result_single : ((x.single Γ shape t).outcome s).1 =
    ((x.single? Γ shape t).outcome s).1 >>= someRow :=
  Action.result_bind (a := x.single? Γ shape t) (fun _ _ => rfl) s

end Handle

/-- The first rows that can be read are read into the first records. -/
theorem Entity.materializeAll_take {shape : Entity} {rows : List Row} {records : List Record}
    (h : shape.materializeAll rows = .ok records) (n : Nat) :
    shape.materializeAll (rows.take n) = .ok (records.take n) :=
  Except.mapM_eq_ok.2 (List.forall₂_take n (Except.mapM_eq_ok.1 h))

/-- **The first rows of a plan.** Its statement can be built, and that of its first `n` rows differs
from it as `Limits` says, and is read as the first `n` rows of it wherever windows are understood.
Where an executor answers it with the first rows of its answer to the whole, and all of these can be
read, the first record is the first of the list of all, if there is one, and the only record is the
only one of that list, which must not have two. -/
theorem Plan.Reachable.first_rows {p : Plan} (h : p.Reachable {Γ}) :
    ∃ st, p.compile Γ = .ok st ∧
      (∀ n : Nat, ∃ first, p.limitedStatement Γ n = .ok first ∧ p.Limits Γ n st first ∧
        ∀ {α : Type} (rows : Statement → List α), p.Understood Γ rows →
          rows first = (rows st).take n) ∧
      ∀ (x : Handle σ κ) (shape : Entity) (t : Token σ) (s s₁ s₂ : SessionState σ)
        (rows : List Row) (records : List Record),
        x.plan = p → shape.materializeAll rows = .ok records → x.Answers Γ t s st rows →
        (∀ one, p.limitedStatement Γ 1 = .ok one → x.Answers Γ t s₁ one (rows.take 1)) →
        (∀ two, p.limitedStatement Γ 2 = .ok two → x.Answers Γ t s₂ two (rows.take 2)) →
        ((x.toList Γ shape t).outcome s).1 = .ok records ∧
        ((x.first? Γ shape t).outcome s₁).1 = .ok records.head? ∧
        ((x.first Γ shape t).outcome s₁).1 =
          (match records with | [] => .error .noRows | r :: _ => .ok r) ∧
        ((x.single? Γ shape t).outcome s₂).1 =
          (match records with
            | [] => .ok none | [r] => .ok (some r) | _ :: _ :: _ => .error .multipleRows) ∧
        ((x.single Γ shape t).outcome s₂).1 =
          (match records with
            | [] => .error .noRows | [r] => .ok r | _ :: _ :: _ => .error .multipleRows) := by
  obtain ⟨f, hf⟩ := h.exists_emit
  have hst : p.compile Γ = .ok f.statement := Fragment.map_statement hf
  refine ⟨f.statement, hst, ?_, ?_⟩
  · intro n
    obtain ⟨first, hfirst, hlimits⟩ := exists_limits hf n
    exact ⟨first, hfirst, hlimits, fun _ hrows => hlimits.rows_eq hst hrows⟩
  · rintro x shape t s s₁ s₂ rows records rfl hrecords hall hone htwo
    obtain ⟨one, hbuilt₁, -⟩ := exists_limits hf 1
    obtain ⟨two, hbuilt₂, -⟩ := exists_limits hf 2
    have hfirst : ((x.rows Γ shape (x.plan.limitedStatement Γ 1) t).outcome s₁).1 =
        .ok (records.take 1) :=
      Handle.result_rows (hone one hbuilt₁) (Entity.materializeAll_take hrecords 1) hbuilt₁
    have hsecond : ((x.rows Γ shape (x.plan.limitedStatement Γ 2) t).outcome s₂).1 =
        .ok (records.take 2) :=
      Handle.result_rows (htwo two hbuilt₂) (Entity.materializeAll_take hrecords 2) hbuilt₂
    refine ⟨Handle.result_rows hall hrecords hst, ?_⟩
    rw [Handle.result_first, Handle.result_first?, Handle.result_single, Handle.result_single?,
      hfirst, hsecond]
    -- two rows are enough to tell none, one and several apart
    rcases records with _ | ⟨r, _ | ⟨r', rest⟩⟩
    · exact ⟨rfl, rfl, rfl, rfl⟩
    · exact ⟨rfl, rfl, rfl, rfl⟩
    · exact ⟨rfl, rfl, rfl, rfl⟩

/-! ### Three customers after the first one -/

namespace Plan

/-- Three customers, after one. -/
def nextCustomers : Plan :=
  .query { source := 0, paging := { limit := some 3, offset := some 1 } }

theorem reachable_nextCustomers : nextCustomers.Reachable {shop} := by
  have htaken := Query.Reachable.take (C := {shop}) (n := 3) (.source 0) rfl
  exact .query (htaken.skip (n := 1) rfl)

/-- Reads a statement on a table with some rows: of these, those in the window at its end. -/
def readFromTable (table : List α) (st : Statement) : List α :=
  match Tail.read (Keywords.endClauses.cut st.sql).2 with
  | some t => t.paging.window table
  | none => []

/-- A window after a statement that has none is read as a window. -/
theorem readFromTable_append {s : Bytes} (hs : IsOperand s) (w : Paging) (params : List Value)
    (table : List α) : readFromTable table ⟨s ++ w.text, params⟩ = w.window table := by
  have hplain : ∀ o ∈ ({ paging := w } : Tail).order, Bytes.PlainName o.column := nofun
  have hcut := hs.cut_endClauses hplain
  have htext : ({ paging := w } : Tail).text = w.text := rfl
  rw [htext] at hcut
  simp only [readFromTable, hcut, Tail.read_clauses hplain]

theorem isOperand_customers : IsOperand (ascii "SELECT * FROM customers") :=
  ⟨by decide, by decide⟩

/-- A database that reads the window reads the limited one. -/
theorem understood_nextCustomers (table : List α) :
    nextCustomers.Understood shop (readFromTable table) := by
  intro st hst w
  cases hst
  exact (readFromTable_append isOperand_customers w [] table).trans
    (congrArg w.window (readFromTable_append isOperand_customers {} [] table).symm)

/-- Records with a number. -/
def cards : Entity where
  naming := default
  properties := [{ name := ascii "Id", column := ascii "id", field := some ⟨.int64, 0⟩ }]

/-- The row of a number. -/
def cardRow (n : Int64) : Row := .ofList [(ascii "id", .integer n)]

/-- The record that is read from the row of a number. -/
def card (n : Int64) : Record := Record.initial.set ⟨.int64, 0⟩ n

/-- A session whose executor is about to answer with some rows. -/
def answering (rows : List Row) : SessionState Scripted.Script where
  executor := { host := { device := { replies := [{ outcome := .ok { rows } }] } } }
  cache := some {}

/-- The three customers, to be listed by their numbers. -/
def nextCards : Handle Scripted.Script Scripted.Cursor :=
  ⟨nextCustomers, ascii "card", some (Scripted.backend id fun s _ => s)⟩

/-- Two of the three are asked for to see that there is more than one. -/
theorem first_rows_nextCustomers :
    nextCustomers.limitedStatement shop 2 =
      .ok ⟨ascii "SELECT * FROM customers LIMIT 2 OFFSET 1", []⟩ ∧
    readFromTable [1, 2, 3, 4, 5] ⟨ascii "SELECT * FROM customers LIMIT 2 OFFSET 1", []⟩ =
      [2, 3] ∧
    ((nextCards.first shop cards Token.never).outcome (answering [cardRow 2])).1 =
      .ok (card 2) ∧
    ((nextCards.single shop cards Token.never).outcome (answering [cardRow 2, cardRow 3])).1 =
      .error .multipleRows := by
  obtain ⟨st, hst, hlimited, hreads⟩ := reachable_nextCustomers.first_rows
    (σ := Scripted.Script) (κ := Scripted.Cursor)
  obtain ⟨two, htwo, -, hrows⟩ := hlimited 2
  have hall : nextCustomers.compile shop =
      .ok ⟨ascii "SELECT * FROM customers" ++ Paging.text { limit := some 3, offset := some 1 },
        []⟩ := rfl
  have hlower : nextCustomers.limitedStatement shop 2 =
      .ok ⟨ascii "SELECT * FROM customers LIMIT 2 OFFSET 1", []⟩ := rfl
  obtain rfl := Except.ok.inj (hall.symm.trans hst)
  obtain rfl := Except.ok.inj (hlower.symm.trans htwo)
  have hanswers : ∀ st rows, nextCards.Answers shop Token.never (answering rows) st rows :=
    fun st rows => Handle.answers_of_execute (r := { rows }) rfl rfl rfl rfl
  obtain ⟨-, -, hfirst, -, hsingle⟩ := hreads nextCards cards Token.never
    (answering [cardRow 2, cardRow 3, cardRow 4]) (answering [cardRow 2])
    (answering [cardRow 2, cardRow 3]) _ [card 2, card 3, card 4] rfl rfl (hanswers _ _)
    (fun one _ => hanswers one _) (fun two _ => hanswers two _)
  refine ⟨hlower, ?_, hfirst, hsingle⟩
  rw [hrows _ (understood_nextCustomers _), readFromTable_append isOperand_customers]
  rfl

end Plan

end SqlPlan
