import SqlPlan.Proofs.GrowingDeclarations
import SqlPlan.Proofs.Lexemes

/-!
# References to group keys

In the projection, the predicates on groups and the ordering a group key can be referred to by its
number. Emission leaves the reference there, and emits the key's own expression in a scope without
groups, where the place may be inside an aggregate and columns are qualified or not.
`Query.Reachable.keysRepeatTerms` says that each reference then has the text and the parameters of
the term that the key is in the GROUP BY clause.
-/

namespace SqlPlan

open Fragment

/-- Whole or by its number, a member of the key is one at a place in the list of keys. -/
theorem Scope.getElem?_of_keyMember {s : Scope} {index : Option Nat} {k : Expr} {keys : List Expr}
    (hgrouping : s.grouping = some keys) (h : s.keyMember index = .ok k) :
    keys[index.getD 0]? = some k ∧ (index = none → keys = [k]) := by
  cases index with
  | none =>
    obtain rfl : keys = [k] :=
      Option.some.inj (hgrouping.symm.trans (Scope.keyMember_none_eq_ok.1 h))
    exact ⟨rfl, fun _ => rfl⟩
  | some i =>
    obtain ⟨keys', hkeys', hk⟩ := Scope.keyMember_some_eq_ok.1 h
    obtain rfl : keys = keys' := Option.some.inj (hgrouping.symm.trans hkeys')
    exact ⟨hk, nofun⟩

namespace Query

variable {Γ : Catalog} {q : Query}

/-- What one member of the list is emitted as. -/
theorem Each.getElem? {α : Type} {emitOne : α → Except TranslationError Fragment} {as : List α}
    {fs : List Fragment} (h : Each emitOne as fs) {i : Nat} {a : α} {f : Fragment}
    (ha : as[i]? = some a) (hf : emitOne a = .ok f) : fs[i]? = some f := by
  induction h generalizing i with
  | nil => simp at ha
  | cons hone _ ih =>
    cases i with
    | zero =>
      obtain rfl : _ = a := by simpa using ha
      simpa using Except.ok.inj (hone.symm.trans hf)
    | succ i => simpa using ih (by simpa using ha)

/-- A reference to a group key has the SQL and the parameters of the key's term, and parentheses
around it where the key is compound. -/
structure RepeatsTerm (k : Expr) (term f : Fragment) : Prop where
  /-- the text of the term, in parentheses or not -/
  sql : f.sql = if k.isCompound then ascii "(" ++ term.sql ++ ascii ")" else term.sql
  /-- the parameters of the term, in their order -/
  params : f.params = term.params

theorem repeatsTerm_parensIf (k : Expr) (term : Fragment) :
    RepeatsTerm k term (parensIf k.isCompound term) := by
  cases h : k.isCompound with
  | true =>
    constructor
    · simp [parensIf, parens, word, h]
    · simp [parensIf, parens, word]
  | false =>
    constructor
    · simp [parensIf, h]
    · rfl

/-- **A grouped query is emitted as `f` with the terms `terms` in its GROUP BY clause**, and these
are what the references to its keys repeat. -/
structure KeysRepeat (Γ : Catalog) (q : Query) (f : Fragment) (terms : List Fragment) : Prop where
  /-- the query is emitted as the fragment -/
  emitted : q.emit Γ = .ok f
  /-- the fragment is written lexeme by lexeme -/
  written : f = Lexeme.written Γ q.groupScope q.lexemes
  /-- each group key is emitted as its term -/
  keys : Each (Expr.emit Γ q.scope) q.keys terms
  /-- the terms make the GROUP BY clause -/
  clause : q.emitKeys Γ = .ok (word " GROUP BY " ++ joined (word ", ") terms)
  /-- the references to keys among the lexemes are those of projection, group filters and ordering,
  in this order -/
  occurrences : q.lexemes.filterMap Lexeme.key? =
    q.groupExprs.flatMap fun e => e.nodes.filterMap (·.expr.keyRef?)
  /-- each of them, inside an aggregate or not, is emitted as its lexeme is written, and repeats the
  term of the key it refers to: the only one, or the one with its number -/
  repeats : ∀ e ∈ q.groupExprs, ∀ n ∈ e.nodes, ∀ index, n.expr = .key index → ∃ k term g,
    q.keys[index.getD 0]? = some k ∧ terms[index.getD 0]? = some term ∧
    (index = none → q.keys = [k]) ∧
    n.expr.emit Γ { q.groupScope with inAggregate := n.inAggregate } = .ok g ∧
    (Lexeme.key index).write Γ q.groupScope = g ∧ RepeatsTerm k term g

/-- The group keys in the lexemes of a query whose rows are expressions on rows are those of its
clauses on groups. -/
theorem filterMap_key?_lexemes (hvalid : q.isGrouped = false → q.having = [])
    (hrows : ∀ e ∈ q.rowExprs, e.IsRowwise) :
    q.lexemes.filterMap Lexeme.key? =
      q.groupExprs.flatMap fun e => e.nodes.filterMap (·.expr.keyRef?) := by
  have hnone : ∀ e ∈ q.rowExprs, e.lexemes.filterMap Lexeme.key? = [] := fun e he =>
    (hrows e he).isKeyless.filterMap_key?
  have hleading : ∀ e ∈ (if q.isProjected then [] else q.keys),
      e.lexemes.filterMap Lexeme.key? = [] := by
    split
    · exact List.forall_mem_nil _
    · exact fun k hk => hnone k (List.mem_append_right _ hk)
  rw [filterMap_lexemes (fun _ => rfl) (fun _ _ _ => rfl) hvalid, exprs_eq, groupExprs]
  simp only [List.flatMap_append]
  rw [List.flatMap_eq_nil_iff.2 hleading, List.flatMap_eq_nil_iff.2 hnone]
  simp only [List.nil_append, List.append_nil, Expr.filterMap_key?_lexemes]

/-- **References to group keys repeat the GROUP BY terms** in every reachable grouped query. What a
node becomes does not depend on where in the clause it stands, and outside groups it is emitted as
the key is in its own clause. -/
theorem Reachable.keysRepeatTerms {C : Set Catalog} (h : q.Reachable C)
    (hC : ∀ Δ ∈ C, Δ.Keeps Γ) (hgrouped : q.isGrouped = true) :
    ∃ f terms, q.KeysRepeat Γ f terms := by
  have hreplayed := h.replay hC
  have hvalid := hreplayed.valid
  obtain ⟨f, hf⟩ := hvalid.translates
  obtain ⟨-, -, keys, -, -, -, -, hkeys, -⟩ := emit_eq_ok.1 hf
  rcases emitKeys_eq_ok.1 hkeys with ⟨hungrouped, -⟩ | ⟨-, terms, hterms, rfl⟩
  · simp [hgrouped] at hungrouped
  refine ⟨f, terms, ?_⟩
  constructor
  case emitted => exact hf
  case written => exact emit_eq_written hf
  case keys => exact hterms
  case clause => exact hkeys
  case occurrences => exact filterMap_key?_lexemes hvalid.having hreplayed.wellFormed.rows
  case repeats =>
    intro e he n hn index hkey
    obtain ⟨a, ha⟩ := hvalid.groupExprs he
    obtain ⟨g, hg⟩ := Expr.exists_emit_of_mem_nodes ha rfl hn
    have hemit : Expr.emitKey Γ q.groupScope index = .ok g := by
      rw [hkey] at hg
      exact (Expr.emitKey_inAggregate n.inAggregate).symm.trans hg
    obtain ⟨k, b, hk, hb, rfl⟩ := Expr.emitKey_eq_ok.1 hemit
    have hgrouping : q.groupScope.grouping = some q.keys := by simp [groupScope, hgrouped]
    obtain ⟨hat, honly⟩ := Scope.getElem?_of_keyMember hgrouping hk
    -- the key is emitted in the scope that its own clause has
    have hterm : terms[index.getD 0]? = some b := by
      rw [Expr.emitUngrouped_eq] at hb
      exact hterms.getElem? hat hb
    refine ⟨k, b, _, hat, hterm, honly, hg, ?_, repeatsTerm_parensIf k b⟩
    rw [Lexeme.write, hemit]
    rfl

/-- Orders by customer and by the tens of their totals. -/
def ordersByTens : Query :=
  { source := 1
    keys := [.column 1 (ascii "Customer"),
      .arith .div (.column 1 (ascii "Total")) (.literal (.integer 10))]
    items := [⟨ascii "customer", .key (some 0)⟩,
      ⟨ascii "most", .aggregate .max (.key (some 1))⟩]
    order := [⟨.key (some 1), true⟩] }

theorem reachable_ordersByTens : ordersByTens.Reachable {shop} := by
  have hkeys : ∀ k ∈ ordersByTens.keys, k.Checked := by
    refine List.forall_mem_cons.2 ⟨Expr.checked_of_raws _ rfl, List.forall_mem_singleton.2 ?_⟩
    exact Expr.checked_of_raws _ rfl
  have hitems : ∀ i ∈ ordersByTens.items, i.value.Checked := by
    refine List.forall_mem_cons.2 ⟨Expr.checked_of_raws _ rfl, List.forall_mem_singleton.2 ?_⟩
    exact Expr.checked_of_raws _ rfl
  have hgrouped := @Reachable.groupBy {shop} shop _ _ _ (.source 1) rfl hkeys rfl
  have hselected := hgrouped.select (Γ := shop) rfl hitems rfl
  exact @Reachable.orderBy {shop} shop _ _ (.key (some 1)) true hselected rfl
    (Expr.checked_of_raws _ rfl) rfl

/-- The compound key is written three times, with its parameter each time; a reference in an
argument has parentheses of its own. -/
theorem keysRepeatTerms_ordersByTens :
    ordersByTens.Reachable {shop} ∧ ordersByTens.isGrouped = true ∧
    ∃ f terms, ordersByTens.KeysRepeat shop f terms ∧
      f.sql = ascii "SELECT customer_id AS customer, MAX((total / ?)) AS most FROM orders" ++
        ascii " GROUP BY customer_id, total / ? ORDER BY (total / ?) DESC" ∧
      f.params = [.integer 10, .integer 10, .integer 10] := by
  obtain ⟨f, terms, h⟩ := reachable_ordersByTens.keysRepeatTerms (Γ := shop)
    (by rintro Δ rfl; exact Catalog.keeps_refl shop) rfl
  refine ⟨reachable_ordersByTens, rfl, f, terms, h, ?_, ?_⟩
  · rw [h.written]
    decide +kernel
  · rw [h.written]
    rfl

end Query

end SqlPlan
