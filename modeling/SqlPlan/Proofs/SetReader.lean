import SqlPlan.Proofs.Binding
import SqlPlan.Proofs.Level
import SqlPlan.Proofs.Translation

/-!
# Reading set operations back

The text of a set operation is read by its keywords: cut at the set operations outside parentheses,
put together from left to right, a piece that is a wrapped table read as what is wrapped, and the
ordering and the window at the end applied to the whole. `SetTree.read` is such a reader. It knows
nothing of plans, and takes no piece for a bare SELECT that has an ordering or a window of its own.

`Plan.compile_writes` is the main statement: reading the statement of a plan gives the tree of the
calls that built it. Names must be plain, and there must be no fragments of the caller, which could
be set operations themselves.
-/

namespace SqlPlan

open Bytes Keywords

/-! ## The ordering and the window -/

namespace Keywords

/-- The directions of an ordering; `true` is the descending one. -/
def directions : Keywords Bool :=
  ⟨[false, true], fun descending => if descending then ascii "DESC" else ascii "ASC"⟩

end Keywords

namespace Tail

/-- Reads the terms of an ordering, of which the first one has the column. -/
def readTerms : Bytes → List (Bool × Bytes) → Option (List ColumnOrder)
  | _, [] => none
  | column, (descending, s) :: rest =>
    if s.isEmpty && rest.isEmpty then some [⟨column, descending⟩]
    else do
      let next ← s.dropPrefix? (ascii ", ")
      return ⟨column, descending⟩ :: (← readTerms next rest)

/-- Reads the ordering, if the clauses begin with one, and gives the other clauses. -/
def readOrder : List (EndClause × Bytes) → Option (List ColumnOrder × List (EndClause × Bytes))
  | (.orderBy, s) :: rest => do
    let (column, terms) := directions.cut s
    return (← readTerms column terms, rest)
  | clauses => some ([], clauses)

/-- Reads the window. -/
def readPaging : List (EndClause × Bytes) → Option Paging
  | [] => some {}
  | [(.limit, s)] => do
    return { limit := Paging.bound (← Decimal.readWhole? s) }
  | [(.limit, s), (.offset, t)] => do
    return { limit := Paging.bound (← Decimal.readWhole? s)
             offset := Paging.bound (← Decimal.readWhole? t) }
  | _ => none

/-- Reads the clauses at the end of a set operation. -/
def read (clauses : List (EndClause × Bytes)) : Option Tail := do
  let (order, rest) ← readOrder clauses
  return { order, paging := ← readPaging rest }

/-- The directions of the terms after the column of the first one, each with what separates it from
the next term and the column of that. -/
def directionsFrom (o : ColumnOrder) : List ColumnOrder → List (Bool × Bytes)
  | [] => [(o.descending, [])]
  | next :: os => (o.descending, ascii ", " ++ next.column) :: directionsFrom next os

/-- The ordering as a clause. -/
def orderClauses (order : List ColumnOrder) : List (EndClause × Bytes) :=
  if order.isEmpty then [] else [(.orderBy, Bytes.joined (ascii ", ") (order.map termText))]

/-- The window as clauses. -/
def pagingClauses (p : Paging) : List (EndClause × Bytes) :=
  (match p.limit, p.offset with
    | some n, _ => [(.limit, Decimal.intText n)]
    | none, some _ => [(.limit, Decimal.intText (-1))]
    | none, none => []) ++
  (match p.offset with
    | some m => [(.offset, Decimal.intText m)]
    | none => [])

/-- The clauses at the end of a set operation. -/
def clauses (t : Tail) : List (EndClause × Bytes) := orderClauses t.order ++ pagingClauses t.paging

/-- The text of the clauses at the end is that of the list of clauses, each with its keyword. -/
theorem text_eq_written (t : Tail) : t.text = endClauses.written t.clauses := by
  have hpaging : t.paging.text = endClauses.written (pagingClauses t.paging) := by
    rcases t.paging with ⟨_ | n, _ | m⟩
    · rfl
    · rw [pagingClauses, written_append, written_cons, written_cons, written_nil, List.append_nil,
        List.append_nil]
      rfl
    · rw [pagingClauses, written_append, written_cons, written_nil, List.append_nil]
      rfl
    · rw [pagingClauses, written_append, written_cons, written_cons, written_nil, List.append_nil,
        List.append_nil]
      rfl
  rw [text, clauses, written_append, hpaging, orderClauses]
  split
  · rfl
  · rw [written_cons, written_nil, List.append_nil]
    rfl

/-- Without ordering and window there is nothing at the end. -/
theorem eq_of_isOrderedOrPaged {t : Tail} (h : t.isOrderedOrPaged = false) : t = {} := by
  obtain ⟨order, limit, offset⟩ := t
  obtain ⟨rfl, rfl, rfl⟩ : order = [] ∧ limit = none ∧ offset = none := by
    simpa [isOrderedOrPaged, Paging.isPaged] using h
  rfl

/-- The clauses at the end have no marks but their own words. -/
theorem level_text {marks : List Bytes} {t : Tail} (hmarks : ∀ m ∈ marks, Capital m)
    (hwords : ∀ w ∈ Fragment.orderWords, Level marks (ascii w))
    (h : ∀ o ∈ t.order, PlainName o.column) : Level marks t.text := by
  have htexts : OrderTexts (Level marks) := ⟨hwords, Query.level_natText hmarks⟩
  exact htexts.tail rfl Level.append fun o ho => (h o ho).level hmarks

/-- What stands in a clause is no clause itself, and no set operation. -/
theorem level_clauses {t : Tail} (h : ∀ o ∈ t.order, PlainName o.column) :
    ∀ c ∈ t.clauses, Level selectMarks c.2 := by
  have hmarks : ∀ m ∈ selectMarks, Capital m := by decide
  have hnumber : ∀ n : Nat, Level selectMarks (Decimal.intText n) := Query.level_natText hmarks
  have hall : Level selectMarks (Decimal.intText (-1)) := by decide
  have horder : Level selectMarks (Bytes.joined (ascii ", ") (t.order.map termText)) := by
    refine Bytes.holds_joined (P := Level selectMarks) rfl Level.append (by decide)
      (List.forall_mem_map.2 ?_)
    intro o ho
    have hword : Level selectMarks (ascii (if o.descending then " DESC" else " ASC")) := by
      cases o.descending <;> decide
    exact ((h o ho).level hmarks).append hword
  rw [clauses, orderClauses, pagingClauses]
  -- the ordering, the limit and the offset, each of which may be missing
  refine List.forall_mem_append.2 ⟨?_, List.forall_mem_append.2 ⟨?_, ?_⟩⟩
  · split
    · exact List.forall_mem_nil _
    · exact List.forall_mem_singleton.2 horder
  · split
    · exact List.forall_mem_singleton.2 (hnumber _)
    · exact List.forall_mem_singleton.2 hall
    · exact List.forall_mem_nil _
  · split
    · exact List.forall_mem_singleton.2 (hnumber _)
    · exact List.forall_mem_nil _

/-- The text of an ordering has a direction after each column. -/
theorem termText_append_eq_written (o : ColumnOrder) (os : List ColumnOrder) :
    termText o ++ (os.map termText).flatMap (ascii ", " ++ ·) =
      o.column ++ directions.written (directionsFrom o os) := by
  have hterm : termText o = o.column ++ Byte.blank :: directions.word o.descending := by
    rw [termText]
    cases o.descending <;> rfl
  induction os generalizing o with
  | nil => simp [hterm, directionsFrom]
  | cons next os ih =>
    have hnext := ih next (by rw [termText]; cases next.descending <;> rfl)
    rw [List.map_cons, List.flatMap_cons, List.append_assoc, hnext, directionsFrom, written_cons,
      hterm]
    simp

/-- An ordering is cut at its directions. -/
theorem cut_directions {o : ColumnOrder} {os : List ColumnOrder}
    (h : ∀ o' ∈ o :: os, PlainName o'.column) :
    directions.cut (Bytes.joined (ascii ", ") ((o :: os).map termText)) =
      (o.column, directionsFrom o os) := by
  have hmarks : ∀ m ∈ directions.marks, Capital m := by decide
  rw [List.map_cons, Bytes.joined, Bytes.flatten_intersperse_cons, termText_append_eq_written]
  refine cut_written hmarks ((h o List.mem_cons_self).level hmarks) ?_
  have hfind : ∀ (d : Bool) (s : Bytes), directions.find? (directions.word d ++ s) = some d := by
    intro d s
    cases d <;> rfl
  induction os generalizing o with
  | nil => exact List.forall_mem_singleton.2 ⟨rfl, fun _ => hfind _ _⟩
  | cons next os ih =>
    obtain ⟨ho, h⟩ := List.forall_mem_cons.1 h
    refine List.forall_mem_cons.2 ⟨⟨?_, fun _ => hfind _ _⟩, ih h⟩
    exact Level.append (by decide) ((h next List.mem_cons_self).level hmarks)

/-- Cut at its directions, an ordering is read back term by term: what stands between two of them is
a comma and the next column. -/
theorem readTerms_directionsFrom (o : ColumnOrder) (os : List ColumnOrder) :
    readTerms o.column (directionsFrom o os) = some (o :: os) := by
  induction os generalizing o with
  | nil => rfl
  | cons next os ih =>
    have hdrop : (ascii ", " ++ next.column).dropPrefix? (ascii ", ") = some next.column :=
      List.dropPrefix?_append_of_beq _ (by decide)
    rw [directionsFrom, readTerms, if_neg (by simp [ascii]), hdrop]
    simp [ih next]

/-- A window is read back from its clauses. An offset without a limit stands behind a limit of -1,
which is read as none. -/
theorem readPaging_pagingClauses (p : Paging) : readPaging (pagingClauses p) = some p := by
  have hbound : ∀ n : Nat, Paging.bound n = some n := fun n => rfl
  rcases p with ⟨_ | n, _ | m⟩
  · rfl
  · simp [pagingClauses, readPaging, Decimal.readWhole?_intText, hbound]
    rfl
  · simp [pagingClauses, readPaging, Decimal.readWhole?_intText, hbound]
  · simp [pagingClauses, readPaging, Decimal.readWhole?_intText, hbound]

/-- **Reading the clauses at the end gives back the ordering and the window.** -/
theorem read_clauses {t : Tail} (h : ∀ o ∈ t.order, PlainName o.column) :
    read t.clauses = some t := by
  have horder : readOrder t.clauses = some (t.order, pagingClauses t.paging) := by
    rw [clauses, orderClauses]
    cases hos : t.order with
    | nil =>
      rw [List.isEmpty_nil, if_pos rfl, List.nil_append]
      rcases t.paging with ⟨_ | n, _ | m⟩ <;> rfl
    | cons o os =>
      rw [List.isEmpty_cons, if_neg Bool.false_ne_true, List.singleton_append, readOrder,
        cut_directions (hos ▸ h)]
      simp [readTerms_directionsFrom]
  rw [read, horder]
  simp [readPaging_pagingClauses]

end Tail

/-! ## The reader -/

/-- The tree of set operations on what its leaves stand for. -/
inductive SetTree (α : Type) where
  /-- a bare SELECT -/
  | leaf (a : α)
  /-- a set operation with its ordering and window -/
  | combine (op : SetOp) (left right : SetTree α) (tail : Tail)
deriving DecidableEq

namespace SetTree

/-- The leaves, from left to right. -/
def leaves {α : Type} : SetTree α → List α
  | .leaf a => [a]
  | .combine _ l r _ => l.leaves ++ r.leaves

/-- The tree with other leaves. -/
def map {α β : Type} (f : α → β) : SetTree α → SetTree β
  | .leaf a => .leaf (f a)
  | .combine op l r t => .combine op (l.map f) (r.map f) t

/-- The value of the tree, where `leaf` is what a SELECT gives, `apply` what a set operation makes
of its operands, and `arrange` what an ordering and a window make of the result. -/
def value {α β : Type} (leaf : α → β) (apply : SetOp → β → β → β) (arrange : Tail → β → β) :
    SetTree α → β
  | .leaf a => leaf a
  | .combine op l r t => arrange t (apply op (l.value leaf apply arrange)
      (r.value leaf apply arrange))

/-- What is wrapped as a table, if something is. -/
def unwrap (s : Bytes) : Option Bytes := do
  let t ← s.dropPrefix? (ascii "SELECT * FROM (")
  t.dropSuffix? (ascii ") AS sub")

/-- A bare SELECT has no ordering and no window outside parentheses. -/
def isBare (s : Bytes) : Bool := (ascii "SELECT ").isPrefixOf s && (endClauses.cut s).2.isEmpty

/-- Reads an operand: a bare SELECT, or a wrapped table, which `inner` reads. -/
def readOperand (inner : Bytes → Option (SetTree Bytes)) (s : Bytes) : Option (SetTree Bytes) :=
  match unwrap s with
  | some t => inner t
  | none => if isBare s then some (.leaf s) else none

/-- Puts set operations together from left to right. The clauses at the end apply to the last one,
and so to the whole. -/
def readRest (operand : Bytes → Option (SetTree Bytes)) (left : SetTree Bytes) :
    List (SetOp × Bytes) → Option (SetTree Bytes)
  | [] => some left
  | [(op, s)] => do
    let (s, clauses) := endClauses.cut s
    return .combine op left (← operand s) (← Tail.read clauses)
  | (op, s) :: rest => do
    readRest operand (.combine op left (← operand s) {}) rest

/-- Reads a text in which tables are wrapped fewer than `n` times in one another. Without a set
operation it is a single SELECT, whatever it ends with. -/
def readFrom : (n : Nat) → Bytes → Option (SetTree Bytes)
  | 0, _ => none
  | n + 1, s =>
    let (first, rest) := setOps.cut s
    if rest.isEmpty then some (.leaf s)
    else do readRest (readOperand (readFrom n)) (← readOperand (readFrom n) first) rest

/-- Reads the text of a SELECT or of set operations on SELECTs. -/
def read (s : Bytes) : Option (SetTree Bytes) := readFrom s.length s

/-- The pieces after the first one, the last of them without the clauses at the end. -/
def trimmed : List (SetOp × Bytes) → List Bytes
  | [] => []
  | [(_, s)] => [(endClauses.cut s).1]
  | (_, s) :: rest => s :: trimmed rest

/-- The operands in a text of set operations, and those in a table that is wrapped in it. -/
inductive OperandIn : Bytes → Bytes → Prop where
  /-- the first operand -/
  | first {s x : Bytes} {rest : List (SetOp × Bytes)} :
      setOps.cut s = (x, rest) → rest ≠ [] → OperandIn s x
  /-- a further operand -/
  | further {s x y : Bytes} {rest : List (SetOp × Bytes)} :
      setOps.cut s = (x, rest) → y ∈ trimmed rest → OperandIn s y
  /-- an operand in a wrapped table -/
  | inside {s x y z : Bytes} : OperandIn s x → unwrap x = some y → OperandIn y z → OperandIn s z

/-! ### What the reader takes -/

variable {n : Nat} {s x y : Bytes} {t left : SetTree Bytes} {rest : List (SetOp × Bytes)}
  {operand : Bytes → Option (SetTree Bytes)} {op : SetOp}

/-- The last operand has the clauses at the end behind it, which belong to the whole. -/
theorem readRest_singleton :
    readRest operand left [(op, s)] = some t ↔
      ∃ right tail, operand (endClauses.cut s).1 = some right ∧
        Tail.read (endClauses.cut s).2 = some tail ∧ t = .combine op left right tail := by
  rw [readRest]
  simp only [Option.bind_eq_bind, Option.bind_eq_some_iff, Option.pure_def, Option.some.injEq]
  constructor
  · rintro ⟨right, hright, tail, htail, rfl⟩
    exact ⟨right, tail, hright, htail, rfl⟩
  · rintro ⟨right, tail, hright, htail, rfl⟩
    exact ⟨right, hright, tail, htail, rfl⟩

/-- Any operand before the last is taken as it stands. -/
theorem readRest_cons (hrest : rest ≠ []) :
    readRest operand left ((op, s) :: rest) = some t ↔
      ∃ right, operand s = some right ∧
        readRest operand (.combine op left right {}) rest = some t := by
  cases rest with
  | nil => exact absurd rfl hrest
  | cons r rest => simp [readRest, Option.bind_eq_some_iff]

/-- A text without a set operation is a leaf; any other one is read from its first operand on. -/
theorem readFrom_eq_some :
    readFrom (n + 1) s = some t ↔
      ((setOps.cut s).2 = [] ∧ t = .leaf s) ∨
      ((setOps.cut s).2 ≠ [] ∧ ∃ left, readOperand (readFrom n) (setOps.cut s).1 = some left ∧
        readRest (readOperand (readFrom n)) left (setOps.cut s).2 = some t) := by
  rw [readFrom]
  rcases setOps.cut s with ⟨first, _ | ⟨r, rest⟩⟩
  · simp only [List.isEmpty_nil, if_true, Option.some.injEq, true_and, ne_eq, not_true_eq_false,
      false_and, or_false]
    exact eq_comm
  · simp [Option.bind_eq_some_iff]

/-- What stands on the left of set operations and their operands are parts of the tree. -/
theorem exists_of_readRest (h : readRest operand left rest = some t) :
    left.leaves ⊆ t.leaves ∧
      ∀ y ∈ trimmed rest, ∃ u, operand y = some u ∧ u.leaves ⊆ t.leaves := by
  induction rest generalizing left with
  | nil =>
    obtain rfl := Option.some.inj h
    exact ⟨List.Subset.refl _, List.forall_mem_nil _⟩
  | cons r rest ih =>
    obtain ⟨op, s⟩ := r
    by_cases hrest : rest = []
    · subst hrest
      obtain ⟨right, tail, hright, -, rfl⟩ := readRest_singleton.1 h
      refine ⟨List.subset_append_left _ _, List.forall_mem_singleton.2 ⟨right, hright, ?_⟩⟩
      exact List.subset_append_right _ _
    · obtain ⟨right, hright, h⟩ := (readRest_cons hrest).1 h
      obtain ⟨hleaves, hall⟩ := ih h
      obtain ⟨hleft, hsub⟩ := List.append_subset.1 hleaves
      refine ⟨hleft, ?_⟩
      rw [trimmed]
      · exact List.forall_mem_cons.2 ⟨⟨right, hright, hsub⟩, hall⟩
      · exact fun hnil => hrest hnil

/-- An operand is read on its own, and its leaves are among those of the tree. -/
theorem exists_of_operandIn (hx : OperandIn s x) (h : readFrom n s = some t) :
    ∃ m u, readOperand (readFrom m) x = some u ∧ u.leaves ⊆ t.leaves := by
  -- an operand is the first one, a further one, or an operand of a wrapped one; each step down uses
  -- up one of the reader's steps
  induction hx generalizing n t with
  | @first s x rest hcut hne =>
    cases n with
    | zero => cases h
    | succ n =>
      rcases readFrom_eq_some.1 h with ⟨hnil, -⟩ | ⟨-, left, hleft, hrest⟩
      · rw [hcut] at hnil
        exact absurd hnil hne
      · rw [hcut] at hleft hrest
        exact ⟨n, left, hleft, (exists_of_readRest hrest).1⟩
  | @further s x y rest hcut hy =>
    cases n with
    | zero => cases h
    | succ n =>
      rcases readFrom_eq_some.1 h with ⟨hnil, -⟩ | ⟨-, left, hleft, hrest⟩
      · rw [hcut] at hnil
        obtain rfl : rest = [] := hnil
        cases hy
      · rw [hcut] at hrest
        exact ⟨n, (exists_of_readRest hrest).2 y hy⟩
  | inside _ hunwrap _ ihx ihz =>
    obtain ⟨m, u, hu, hleaves⟩ := ihx h
    rw [readOperand, hunwrap] at hu
    obtain ⟨m', v, hv, hleaves'⟩ := ihz hu
    exact ⟨m', v, hv, List.Subset.trans hleaves' hleaves⟩

/-- **An operand of a text that is read is a wrapped table or a bare SELECT**, which is a leaf of
the tree. -/
theorem isBare_of_operandIn (hx : OperandIn s x) (h : readFrom n s = some t)
    (hunwrap : unwrap x = none) : isBare x = true ∧ x ∈ t.leaves := by
  obtain ⟨m, u, hu, hleaves⟩ := exists_of_operandIn hx h
  rw [readOperand, hunwrap] at hu
  cases hbare : isBare x with
  | false => simp [hbare] at hu
  | true =>
    simp only [hbare, if_true, Option.some.injEq] at hu
    subst hu
    exact ⟨rfl, hleaves List.mem_cons_self⟩

@[simp] theorem leaves_map {α β : Type} (f : α → β) (t : SetTree α) :
    (t.map f).leaves = t.leaves.map f := by
  induction t with
  | leaf a => rfl
  | combine op l r t ihl ihr => rw [map, leaves, ihl, ihr, leaves, List.map_append]

/-- A value computed over mapped leaves is one computed over the leaves. -/
theorem value_map {α β γ : Type} (f : α → β) (leaf : β → γ) (apply : SetOp → γ → γ → γ)
    (arrange : Tail → γ → γ) (t : SetTree α) :
    (t.map f).value leaf apply arrange = t.value (leaf ∘ f) apply arrange := by
  induction t with
  | leaf a => rfl
  | combine op l r t ihl ihr => rw [map, value, ihl, ihr, value]

end SetTree

/-! ## The text of a plan -/

namespace Plan

open Fragment SetTree

/-- The queries of a plan. -/
def queries : Plan → List Query
  | .query q => [q]
  | .combine _ l r _ => l.queries ++ r.queries

/-- The tree of the calls that built a plan, with something for each of its queries. -/
def callTree {α : Type} (leaf : Query → α) : Plan → SetTree α
  | .query q => .leaf (leaf q)
  | .combine op l r t => .combine op (l.callTree leaf) (r.callTree leaf) t

/-- The tree of the calls depends on the queries through its leaves only. -/
theorem map_callTree {α β : Type} (f : α → β) (leaf : Query → α) (p : Plan) :
    (p.callTree leaf).map f = p.callTree fun q => f (leaf q) := by
  induction p with
  | query q => rfl
  | combine op l r t ihl ihr => rw [callTree, SetTree.map, ihl, ihr, callTree]

/-- The height of that tree. -/
def height : Plan → Nat
  | .query _ => 0
  | .combine _ l r _ => max l.height r.height + 1

/-- The text of an operand. -/
def operandText (wrapped : Bool) (s : Bytes) : Bytes :=
  if wrapped then ascii "SELECT * FROM (" ++ s ++ ascii ") AS sub" else s

/-- The text of a plan, given that of its queries. -/
def text (sql : Query → Bytes) : Plan → Bytes
  | .query q => sql q
  | .combine op l r t => operandText l.wrapsLeft (l.text sql) ++ (Byte.blank :: setOps.word op) ++
      operandText r.wrapsRight (r.text sql) ++ t.text

variable {Γ : Catalog} {p : Plan} {stmt : Query → Statement} {sql : Query → Bytes}

/-- The text of an operand is wrapped where the operand is. -/
theorem sql_wrap (wrapped : Bool) (f : Fragment) :
    (wrap wrapped f).sql = operandText wrapped f.sql := by
  rw [wrap, operandText]
  split
  · rw [sql_append, sql_append, Fragment.word, Fragment.word, sql_ofText, sql_ofText]
  · rfl

theorem params_wrap (wrapped : Bool) (f : Fragment) : (wrap wrapped f).params = f.params := by
  rw [wrap]
  split
  · rw [params_append, params_append, Fragment.word, Fragment.word, params_ofText, params_ofText,
      List.nil_append, List.append_nil]
  · rfl

/-- A plan whose queries have statements has one, with the parameters of the queries in order. -/
theorem exists_emit_of_queries (h : ∀ q ∈ p.queries, q.compile Γ = .ok (stmt q)) :
    ∃ f, p.emit Γ = .ok f ∧ f.sql = p.text (fun q => (stmt q).sql) ∧
      f.params = (p.callTree stmt).leaves.flatMap (·.params) := by
  induction p with
  | query q =>
    have hq := h q List.mem_cons_self
    rw [Query.compile, Except.map_eq_ok] at hq
    obtain ⟨f, hf, hst⟩ := hq
    refine ⟨f, hf, ?_, ?_⟩
    · exact (congrArg Statement.sql hst).symm
    · rw [callTree, leaves, List.flatMap_singleton]
      exact (congrArg Statement.params hst).symm
  | combine op l r t ihl ihr =>
    obtain ⟨hl, hr⟩ := List.forall_mem_append.1 h
    obtain ⟨a, ha, hasql, haparams⟩ := ihl hl
    obtain ⟨b, hb, hbsql, hbparams⟩ := ihr hr
    refine ⟨_, emit_combine_eq_ok.2 ⟨a, b, ha, hb, rfl⟩, ?_, ?_⟩
    · rw [text, ← hasql, ← hbsql, sql_append, sql_append, sql_append, sql_wrap, sql_wrap,
        sql_ofText, sql_ofText]
      rfl
    · rw [callTree, leaves, List.flatMap_append, ← haparams, ← hbparams, params_append,
        params_append, params_append, params_wrap, params_wrap, params_ofText, params_ofText,
        List.append_nil, List.append_nil]

/-! ## Operands -/

/-- The text of a query, as the reader of set operations needs it. -/
structure LeafText (q : Query) (s : Bytes) : Prop where
  /-- no set operation is found in it -/
  level : Level setOps.marks s
  /-- and no clause at the end, where it has none -/
  bare : q.isOrderedOrPaged = false → Level selectMarks s
  /-- it is a SELECT -/
  select : ascii "SELECT " <+: s
  /-- of something else than a wrapped table -/
  unwrap : unwrap s = none

/-- The text of an operand has no keyword outside parentheses but its first. -/
structure IsOperand (s : Bytes) : Prop where
  /-- no set operation is found in it, and no clause at the end -/
  level : Level selectMarks s
  /-- it is a SELECT -/
  select : ascii "SELECT " <+: s

/-- A text with matching parentheses becomes an operand when it is wrapped, whatever it has
inside. -/
theorem isOperand_wrapped {s : Bytes} (h : Level [] s) : IsOperand (operandText true s) where
  level := by
    rw [operandText, if_pos rfl]
    exact Level.enclose (by decide) h (by decide)
  select := by
    rw [operandText, if_pos rfl, List.append_assoc]
    exact List.IsPrefix.trans (by decide) (List.prefix_append _ _)

/-- What is wrapped is unwrapped again. -/
theorem unwrap_wrapped (s : Bytes) : SetTree.unwrap (operandText true s) = some s := by
  rw [operandText, if_pos rfl, SetTree.unwrap, List.append_assoc,
    List.dropPrefix?_append_of_beq _ (by decide)]
  exact List.dropSuffix?_eq_some_iff.2 ⟨ascii ") AS sub", rfl, by decide⟩

/-- A wrapped operand is read as what it wraps. -/
theorem readOperand_wrapped (inner : Bytes → Option (SetTree Bytes)) (s : Bytes) :
    readOperand inner (operandText true s) = inner s := by
  rw [readOperand, unwrap_wrapped]

/-- The text of a query without ordering and window is an operand as it stands. -/
theorem LeafText.isOperand {q : Query} {s : Bytes} (h : LeafText q s)
    (hq : q.isOrderedOrPaged = false) : IsOperand s :=
  ⟨h.bare hq, h.select⟩

/-- Such a text is read as a leaf, by whatever reads the wrapped ones. -/
theorem LeafText.readOperand_eq {q : Query} {s : Bytes} (h : LeafText q s)
    (hq : q.isOrderedOrPaged = false) (inner : Bytes → Option (SetTree Bytes)) :
    readOperand inner s = some (.leaf s) := by
  have hcut : endClauses.cut s = (s, []) :=
    cut_of_level (by decide) ((h.bare hq).mono (by decide))
  have hbare : isBare s = true := by
    rw [isBare, hcut, List.isPrefixOf_iff_prefix.2 h.select]
    rfl
  rw [readOperand, h.unwrap, hbare]
  rfl

/-- A SELECT from a named table is no wrapped table: its columns would be a star, and the
parenthesis would belong to the name. -/
theorem unwrap_select {columns table more : Bytes} (hcolumns : Level tables.marks columns)
    (htable : PlainName table) (hmore : StartsBlank more) :
    SetTree.unwrap (ascii "SELECT " ++ (columns ++ (ascii " FROM " ++ (table ++ more)))) =
      none := by
  rw [SetTree.unwrap]
  cases hdrop : List.dropPrefix?
      (ascii "SELECT " ++ (columns ++ (ascii " FROM " ++ (table ++ more))))
      (ascii "SELECT * FROM (") with
  | none => rfl
  | some u =>
    obtain ⟨w, hw, hwrapped⟩ := List.dropPrefix?_eq_some_iff.1 hdrop
    obtain rfl := eq_of_beq hwrapped
    -- a wrapped table would begin with a star and a parenthesis for the table
    have hstar : columns ++ Byte.blank :: (tables.word () ++ (table ++ more)) =
        Byte.star :: Byte.blank :: (tables.word () ++ Byte.opening :: u) :=
      List.append_cancel_left hw
    have hfind : ∀ s, tables.find? (tables.word () ++ s) = some () := fun _ => rfl
    cases columns with
    | nil => cases hstar
    | cons b columns =>
      obtain ⟨-, -, hlevel⟩ := hcolumns
      obtain ⟨rfl, hrest⟩ := List.cons.inj hstar
      obtain rfl : columns = [] :=
        eq_of_append_eq (K := tables) (y := []) (by decide) hlevel rfl (hfind _) (hfind _) hrest
      have hname : table ++ more = Byte.opening :: u :=
        List.append_cancel_left (List.cons.inj hrest).2
      -- no plain name begins with a parenthesis, and a blank is none
      cases table with
      | nil =>
        rw [List.nil_append] at hname
        exact absurd (hmore Byte.opening (hname ▸ rfl)) (by decide)
      | cons b table =>
        obtain ⟨rfl, -⟩ := List.cons.inj hname
        exact absurd rfl (htable Byte.opening List.mem_cons_self).2.1

/-- A query that is emitted without fragments of the caller and with plain names. -/
theorem leafText_of_emit {q : Query} {f : Fragment} (hnames : ∀ n ∈ q.names Γ, PlainName n)
    (hraws : ∀ e ∈ q.exprs, e.raws = []) (h : q.emit Γ = .ok f) : LeafText q f.sql := by
  obtain ⟨hlevel, hbare⟩ := Query.level_emit hnames hraws h
  obtain ⟨columns, more, hsql, hcolumns, hmore⟩ := Query.exists_columns hnames hraws h
  refine ⟨hlevel, hbare, ⟨_, hsql.symm⟩, ?_⟩
  rw [hsql]
  exact unwrap_select hcolumns (hnames _ List.mem_cons_self) hmore

/-! ## Reading the text of a plan -/

/-- The queries of the plan have texts that a reader of set operations takes for single SELECTs, and
it orders by plain columns. -/
def Readable (sql : Query → Bytes) : Plan → Prop
  | .query q => LeafText q (sql q)
  | .combine _ l r t => l.Readable sql ∧ r.Readable sql ∧ ∀ o ∈ t.order, PlainName o.column

/-- A text of set operations that is read as the tree when more set operations follow it: its
operands are cut apart, and reading them from left to right leads to the tree. -/
def ReadsLeft (operand : Bytes → Option (SetTree Bytes)) (s : Bytes) (tree : SetTree Bytes) :
    Prop :=
  ∃ first rest left, s = first ++ setOps.written rest ∧ IsOperand first ∧
    (∀ o ∈ rest, IsOperand o.2) ∧ operand first = some left ∧
    ∀ more, more ≠ [] → readRest operand left (rest ++ more) = readRest operand tree more

variable {operand : Bytes → Option (SetTree Bytes)} {s u : Bytes} {l r : SetTree Bytes}
  {op : SetOp} {t : Tail} {n : Nat}

theorem ReadsLeft.of_operand (hs : IsOperand s) (h : operand s = some l) :
    ReadsLeft operand s l :=
  ⟨s, [], l, (List.append_nil s).symm, hs, List.forall_mem_nil _, h, fun _ _ => rfl⟩

/-- One more operand on the right. -/
theorem ReadsLeft.combine (op : SetOp) (hl : ReadsLeft operand s l) (hu : IsOperand u)
    (hr : operand u = some r) :
    ReadsLeft operand (s ++ (Byte.blank :: setOps.word op) ++ u) (.combine op l r {}) := by
  obtain ⟨first, rest, left, rfl, hfirst, hrest, hleft, hread⟩ := hl
  refine ⟨first, rest ++ [(op, u)], left, ?_, hfirst, ?_, hleft, ?_⟩
  · simp
  · exact List.forall_mem_append.2 ⟨hrest, List.forall_mem_singleton.2 hu⟩
  · intro more hmore
    rw [List.append_assoc, hread _ (List.append_ne_nil_of_left_ne_nil (List.cons_ne_nil _ _) _)]
    cases more with
    | nil => exact absurd rfl hmore
    | cons m more =>
      rw [List.singleton_append, readRest, hr]
      · rfl
      · exact List.cons_ne_nil _ _

/-- A set operation is recognised before an operand. -/
theorem IsOperand.find? (h : IsOperand s) (op : SetOp) (u : Bytes) :
    setOps.find? (setOps.word op ++ (s ++ u)) = some op := by
  obtain ⟨t, rfl⟩ := h.select
  cases op <;> rfl

/-- The clauses at the end are cut off from an operand. -/
theorem IsOperand.cut_endClauses (h : IsOperand s) (ht : ∀ o ∈ t.order, PlainName o.column) :
    endClauses.cut (s ++ t.text) = (s, t.clauses) := by
  rw [Tail.text_eq_written]
  refine cut_written (by decide) (h.level.mono (by decide)) ?_
  intro c hc
  refine ⟨(Tail.level_clauses ht c hc).mono (by decide), ?_⟩
  intro v
  obtain ⟨clause, text⟩ := c
  cases clause <;> rfl

/-- **A set operation is read with its ordering and window** from what its operands are read as. -/
theorem ReadsLeft.readFrom_eq (hl : ReadsLeft (readOperand (readFrom n)) s l) (hu : IsOperand u)
    (hr : readOperand (readFrom n) u = some r) (ht : ∀ o ∈ t.order, PlainName o.column) :
    readFrom (n + 1) (s ++ (Byte.blank :: setOps.word op) ++ u ++ t.text) =
      some (.combine op l r t) := by
  obtain ⟨first, rest, left, rfl, hfirst, hrest, hleft, hread⟩ := hl
  have hmarks : ∀ m ∈ setOps.marks, Capital m := by decide
  have htail : Level setOps.marks t.text := Tail.level_text hmarks (by decide) ht
  -- the clauses at the end stand behind the last operand, and hold no set operation
  have hcut : setOps.cut
      (first ++ setOps.written rest ++ (Byte.blank :: setOps.word op) ++ u ++ t.text) =
        (first, rest ++ [(op, u ++ t.text)]) := by
    have hpieces : ∀ o ∈ rest ++ [(op, u ++ t.text)], Level setOps.marks o.2 ∧
        ∀ v, setOps.find? (setOps.word o.1 ++ (o.2 ++ v)) = some o.1 := by
      refine List.forall_mem_append.2 ⟨?_, List.forall_mem_singleton.2 ⟨?_, ?_⟩⟩
      · intro o ho
        exact ⟨(hrest o ho).level.mono (by decide), (hrest o ho).find? o.1⟩
      · exact (hu.level.mono (by decide)).append htail
      · intro v
        rw [List.append_assoc]
        exact hu.find? op _
    have := cut_written hmarks (hfirst.level.mono (by decide)) hpieces
    simpa using this
  refine readFrom_eq_some.2 (.inr ?_)
  rw [hcut]
  refine ⟨List.append_ne_nil_of_right_ne_nil _ (List.cons_ne_nil _ _), left, hleft, ?_⟩
  rw [hread _ (List.cons_ne_nil _ _), readRest_singleton, hu.cut_endClauses ht]
  exact ⟨r, t, hr, Tail.read_clauses ht, rfl⟩

/-- The parentheses in the text of a plan match. -/
theorem level_text (hp : p.Readable sql) : Level [] (p.text sql) := by
  induction p with
  | query q => exact hp.level.mono (List.nil_subset _)
  | combine op l r t ihl ihr =>
    obtain ⟨hl, hr, ht⟩ := hp
    have hoperand : ∀ {s} (wrapped : Bool), Level [] s → Level [] (operandText wrapped s) := by
      intro s wrapped hs
      cases wrapped
      · exact hs
      · exact (isOperand_wrapped hs).level.mono (List.nil_subset _)
    have hword : Level [] (Byte.blank :: setOps.word op) := by cases op <;> decide
    have htail : Level [] t.text := Tail.level_text (List.forall_mem_nil _) (by decide) ht
    exact (((hoperand _ (ihl hl)).append hword).append (hoperand _ (ihr hr))).append htail

/-- A wrapped plan is an operand, which is read as the plan is. -/
theorem readOperand_plan (hp : p.Readable sql)
    (h : readFrom n (p.text sql) = some (p.callTree sql)) :
    IsOperand (operandText true (p.text sql)) ∧
      readOperand (readFrom n) (operandText true (p.text sql)) = some (p.callTree sql) :=
  ⟨isOperand_wrapped (level_text hp), (readOperand_wrapped _ _).trans h⟩

/-- A query without ordering and window is an operand as it stands. -/
theorem LeafText.readOperand_plan {q : Query} (h : LeafText q (sql q)) (wrapped : Bool)
    (hq : q.isOrderedOrPaged = true → wrapped = true)
    (hread : readFrom n (sql q) = some (.leaf (sql q))) :
    IsOperand (operandText wrapped (sql q)) ∧
      readOperand (readFrom n) (operandText wrapped (sql q)) = some (.leaf (sql q)) := by
  cases wrapped with
  | true => exact Plan.readOperand_plan (p := .query q) h hread
  | false =>
    have hbare : q.isOrderedOrPaged = false := by
      cases horder : q.isOrderedOrPaged with
      | true => exact (hq horder).symm
      | false => rfl
    exact ⟨h.isOperand hbare, h.readOperand_eq hbare _⟩

/-- A plan on the right of a set operation is an operand, which is read as the plan is: it is
wrapped unless it is a query without ordering and window. -/
theorem readOperand_right (hp : p.Readable sql)
    (h : readFrom n (p.text sql) = some (p.callTree sql)) :
    IsOperand (operandText p.wrapsRight (p.text sql)) ∧
      readOperand (readFrom n) (operandText p.wrapsRight (p.text sql)) =
        some (p.callTree sql) := by
  cases p with
  | query q =>
    refine LeafText.readOperand_plan hp _ ?_ h
    intro hq
    rw [wrapsRight, isOrderedOrPaged, hq, Bool.true_or]
  | combine op l r t =>
    have hwraps : (Plan.combine op l r t).wrapsRight = true := Bool.or_true _
    rw [hwraps]
    exact Plan.readOperand_plan hp h

/-- **The text of a plan is read as the tree of its calls.** The induction is on the plan, and says
also that the plan is read as that tree where it is the left operand of set operations: the operands
of a plan without ordering and window are then not apart from those that follow. -/
theorem readFrom_text (hp : p.Readable sql) :
    (∀ n, p.height < n → readFrom n (p.text sql) = some (p.callTree sql)) ∧
      ∀ n, p.height < n → ReadsLeft (readOperand (readFrom n))
        (operandText p.wrapsLeft (p.text sql)) (p.callTree sql) := by
  induction p with
  | query q =>
    have hread : ∀ n, 0 < n → readFrom n (sql q) = some (.leaf (sql q)) := by
      intro n hn
      obtain ⟨n, rfl⟩ := Nat.exists_eq_succ_of_ne_zero hn.ne'
      have hcut : setOps.cut (sql q) = (sql q, []) := cut_of_level (by decide) hp.level
      exact readFrom_eq_some.2 (.inl ⟨by rw [hcut], rfl⟩)
    refine ⟨hread, fun n hn => ?_⟩
    obtain ⟨hoperand, hleaf⟩ := hp.readOperand_plan q.isOrderedOrPaged id (hread n hn)
    exact .of_operand hoperand hleaf
  | combine op l r t ihl ihr =>
    obtain ⟨hl, hr, ht⟩ := hp
    obtain ⟨-, hleft⟩ := ihl hl
    obtain ⟨hright, -⟩ := ihr hr
    have hread : ∀ n, (Plan.combine op l r t).height < n →
        readFrom n ((Plan.combine op l r t).text sql) =
          some ((Plan.combine op l r t).callTree sql) := by
      intro n hn
      obtain ⟨n, rfl⟩ := Nat.exists_eq_succ_of_ne_zero (Nat.ne_of_gt (Nat.zero_lt_of_lt hn))
      rw [height] at hn
      obtain ⟨hu, hr'⟩ := readOperand_right hr (hright n (by omega))
      exact (hleft n (by omega)).readFrom_eq hu hr' ht
    refine ⟨hread, fun n hn => ?_⟩
    cases hwraps : (Plan.combine op l r t).wrapsLeft with
    | true =>
      obtain ⟨hs, hl'⟩ := Plan.readOperand_plan (p := .combine op l r t) ⟨hl, hr, ht⟩ (hread n hn)
      exact .of_operand hs hl'
    | false =>
      -- without ordering and window the plan has its operands and nothing else
      obtain rfl := Tail.eq_of_isOrderedOrPaged hwraps
      have htext : (Plan.combine op l r {}).text sql = operandText l.wrapsLeft (l.text sql) ++
          (Byte.blank :: setOps.word op) ++ operandText r.wrapsRight (r.text sql) :=
        List.append_nil _
      rw [height] at hn
      obtain ⟨hu, hr'⟩ := readOperand_right hr (hright n (by omega))
      rw [operandText, if_neg Bool.false_ne_true, htext]
      exact (hleft n (by omega)).combine op hu hr'

/-- A text is longer than the tree of its plan is high. -/
theorem height_lt_length (hp : p.Readable sql) : p.height < (p.text sql).length := by
  induction p with
  | query q => exact Nat.lt_of_lt_of_le (Nat.zero_lt_succ 6) hp.select.length_le
  | combine op l r t ihl ihr =>
    obtain ⟨hl, hr, -⟩ := hp
    have hoperand : ∀ (wrapped : Bool) (s : Bytes), s.length ≤ (operandText wrapped s).length := by
      intro wrapped s
      rw [operandText]
      split
      · simp only [List.length_append]
        omega
      · exact Nat.le_refl _
    have hleft := hoperand l.wrapsLeft (l.text sql)
    have hright := hoperand r.wrapsRight (r.text sql)
    have := ihl hl
    have := ihr hr
    simp only [height, text, List.length_append, List.length_cons]
    omega

/-- A plan is readable where its queries have statements, its names are plain and nothing in it is
written by the caller. -/
theorem readable_of_names (hqueries : ∀ q ∈ p.queries, q.compile Γ = .ok (stmt q))
    (hnames : ∀ n ∈ p.names Γ, PlainName n) (hraws : ∀ e ∈ p.exprs, e.raws = []) :
    p.Readable fun q => (stmt q).sql := by
  induction p with
  | query q =>
    obtain ⟨f, hf, hst⟩ := Except.map_eq_ok.1 (hqueries q List.mem_cons_self)
    have hsql : (stmt q).sql = f.sql := congrArg Statement.sql hst
    rw [Readable, hsql]
    exact leafText_of_emit hnames hraws hf
  | combine op l r t ihl ihr =>
    obtain ⟨hql, hqr⟩ := List.forall_mem_append.1 hqueries
    obtain ⟨hnames, horder⟩ := List.forall_mem_append.1 hnames
    obtain ⟨hnl, hnr⟩ := List.forall_mem_append.1 hnames
    obtain ⟨hrl, hrr⟩ := List.forall_mem_append.1 hraws
    exact ⟨ihl hql hnl hrl, ihr hqr hnr hrr, List.forall_mem_map.1 horder⟩

/-- **The statement writes the tree** of set operations on the statements of its leaves. -/
structure Writes (st : Statement) (tree : SetTree Statement) : Prop where
  /-- its text is read as the tree -/
  read_eq : SetTree.read st.sql = some (tree.map (·.sql))
  /-- so it has the value of the tree, whatever set operations, orderings and SELECTs mean -/
  value_eq : ∀ {β : Type} (leaf : Bytes → β) (apply : SetOp → β → β → β) (arrange : Tail → β → β),
    (SetTree.read st.sql).map (·.value leaf apply arrange) =
      some (tree.value (fun a => leaf a.sql) apply arrange)
  /-- an operand is a wrapped table, or a leaf without ordering and window -/
  operands : ∀ {x : Bytes}, OperandIn st.sql x →
    (∃ y, unwrap x = some y) ∨ (isBare x = true ∧ ∃ a ∈ tree.leaves, x = a.sql)
  /-- its parameters are those of the leaves from left to right -/
  params_eq : st.params = tree.leaves.flatMap (·.params)

/-- **Set operations keep the tree of the calls.** A plan is compiled if its queries are, and its
statement writes the tree: names must be plain, and there must be no fragments of the caller. That
the text is read as the tree is `readFrom_text`, with as many steps as the text has bytes. -/
theorem compile_writes (hqueries : ∀ q ∈ p.queries, q.compile Γ = .ok (stmt q))
    (hnames : ∀ n ∈ p.names Γ, PlainName n) (hraws : ∀ e ∈ p.exprs, e.raws = []) :
    ∃ st, p.compile Γ = .ok st ∧ Writes st (p.callTree stmt) := by
  obtain ⟨f, hf, hsql, hparams⟩ := exists_emit_of_queries hqueries
  have hreadable := readable_of_names hqueries hnames hraws
  have hread : SetTree.read f.sql = some ((p.callTree stmt).map (·.sql)) := by
    rw [hsql, SetTree.read, (readFrom_text hreadable).1 _ (height_lt_length hreadable),
      map_callTree]
  refine ⟨f.statement, Except.map_eq_ok.2 ⟨f, hf, rfl⟩, hread, ?_, ?_, hparams⟩
  · intro β leaf apply arrange
    change (SetTree.read f.sql).map _ = _
    rw [hread, Option.map_some, value_map]
    rfl
  · intro x hx
    cases hunwrap : unwrap x with
    | some y => exact .inl ⟨y, rfl⟩
    | none =>
      obtain ⟨hbare, hmem⟩ := isBare_of_operandIn hx hread hunwrap
      rw [leaves_map, List.mem_map] at hmem
      obtain ⟨a, ha, rfl⟩ := hmem
      exact .inr ⟨hbare, a, ha, rfl⟩

/-- All customers and the cities of the report, but for those customers in Rome that come after the
second one; the first three of them, the last cities first. -/
def nested : Plan :=
  .combine .except
    (.combine .union (.query { source := 0 }) (.query cityReport) {})
    (.combine .intersect (.query { source := 0 })
      (.query
        { source := 0
          filters := [.compare .eq (.column 0 (ascii "City")) (.literal (.text (ascii "Rome")))] })
      { paging := { offset := some 2 } })
    { order := [⟨ascii "city", true⟩, ⟨ascii "id", false⟩], paging := { limit := some 3 } }

/-- The statement of a query that has one. -/
def statementOf (Γ : Catalog) (q : Query) : Statement := (q.compile Γ).toOption.getD default

theorem compile_writes_nested :
    ∃ st, nested.compile shop = .ok st ∧ Writes st (nested.callTree (statementOf shop)) := by
  have hqueries : ∀ q ∈ nested.queries, q.compile shop = .ok (statementOf shop q) := by
    simp only [nested, queries, List.cons_append, List.nil_append, List.forall_mem_cons]
    exact ⟨rfl, rfl, rfl, rfl, List.forall_mem_nil _⟩
  exact compile_writes hqueries (by decide) (by decide)

end Plan

end SqlPlan
