import SqlPlan.Proofs.NormalForm
import SqlPlan.Proofs.WellFormed

/-!
# Comparisons with NULL

A comparison asks its two sides whether they are the literal NULL, and then writes a null check of
the other side. Two nodes answer no and yet write what another node writes: a value taken as a
predicate, and a reference to a group key. `Scope.ComesToNull` says when an expression is written as
the word NULL, in parentheses or not, and `Expr.spellsNull_iff` that it is right.

`Expr.compares_null_iff` is the main statement: which comparisons in an expression are written with
NULL as an operand. `Expr.compares_with_null` has two of them. No columns may be called NULL here.
-/

namespace SqlPlan

/-! ## The word -/

/-- The word NULL, in parentheses or not. -/
inductive SpellsNull : Bytes → Prop where
  /-- the word -/
  | word : SpellsNull (ascii "NULL")
  /-- in parentheses -/
  | parens {t : Bytes} : SpellsNull t → SpellsNull (ascii "(" ++ t ++ ascii ")")

namespace SpellsNull

variable {t : Bytes}

/-- It has no other bytes than its letters and parentheses. -/
theorem mem_bytes (h : SpellsNull t) : ∀ b ∈ t, b ∈ ascii "NUL()" := by
  induction h with
  | word => simp [ascii]
  | parens _ ih =>
    intro b hb
    rw [List.mem_append, List.mem_append] at hb
    rcases hb with (hb | hb) | hb
    · obtain rfl := List.mem_singleton.1 hb
      decide
    · exact ih b hb
    · obtain rfl := List.mem_singleton.1 hb
      decide

/-- What has another byte does not spell NULL. -/
theorem not_of_mem {b : UInt8} (hb : b ∈ t) (hother : b ∉ ascii "NUL()") : ¬ SpellsNull t :=
  fun h => hother (h.mem_bytes b hb)

/-- Parentheses neither make a text spell NULL nor keep it from doing so. -/
theorem parens_iff : SpellsNull (ascii "(" ++ t ++ ascii ")") ↔ SpellsNull t := by
  refine ⟨fun h => ?_, .parens⟩
  generalize hwhole : ascii "(" ++ t ++ ascii ")" = whole at h
  cases h with
  | word => simp [ascii] at hwhole
  | parens h =>
    obtain rfl := List.append_cancel_left (List.append_cancel_right hwhole)
    exact h

theorem parensIf_iff {f : Fragment} {needed : Bool} :
    SpellsNull (f.parensIf needed).sql ↔ SpellsNull f.sql := by
  rw [Fragment.parensIf]
  split
  · simpa [Fragment.parens, Fragment.word] using parens_iff
  · rfl

end SpellsNull

/-! ## What is written as the word -/

namespace Scope

/-- An expression **comes to NULL** in a scope: it is the literal, or a value taken as a predicate
or a group key that comes to NULL; a fragment of the caller may spell the word. -/
inductive ComesToNull : Scope → Expr → Prop where
  /-- the literal -/
  | literal {s : Scope} {v : Value} : v.isNull = true → ComesToNull s (.literal v)
  /-- a value taken as a predicate -/
  | truth {s : Scope} {e : Expr} : ComesToNull s e → ComesToNull s (.truth e)
  /-- a group key, which is written outside groups -/
  | key {s : Scope} {index : Option Nat} {k : Expr} : s.keyMember index = .ok k →
      ComesToNull s.ungrouped k → ComesToNull s (.key index)
  /-- a fragment of the caller -/
  | raw {s : Scope} {sql : Bytes} {params : List Value} : SpellsNull sql →
      ComesToNull s (.raw sql params)

variable {s : Scope}

/-- A literal comes to NULL where its value is NULL. -/
theorem comesToNull_literal {v : Value} : s.ComesToNull (.literal v) ↔ v.isNull = true := by
  refine ⟨fun h => ?_, .literal⟩
  cases h with
  | literal hnull => exact hnull

/-- A value taken as a predicate comes to NULL where the value does, which the node does not
show. -/
theorem comesToNull_truth {e : Expr} : s.ComesToNull (.truth e) ↔ s.ComesToNull e := by
  refine ⟨fun h => ?_, .truth⟩
  cases h with
  | truth hnull => exact hnull

/-- So does a reference to a group key where the key does. -/
theorem comesToNull_key {index : Option Nat} {k : Expr} (hk : s.keyMember index = .ok k) :
    s.ComesToNull (.key index) ↔ s.ungrouped.ComesToNull k := by
  refine ⟨fun h => ?_, .key hk⟩
  cases h with
  | key hk' hnull =>
    obtain rfl := Except.ok.inj (hk'.symm.trans hk)
    exact hnull

theorem comesToNull_raw {sql : Bytes} {params : List Value} :
    s.ComesToNull (.raw sql params) ↔ SpellsNull sql := by
  refine ⟨fun h => ?_, .raw⟩
  cases h with
  | raw hspells => exact hspells

/-- No column of the entities that take part is called NULL. -/
def NamesNoNull (Γ : Catalog) (s : Scope) : Prop :=
  ∀ owner ∈ s.visible, ∀ p ∈ (Γ owner).properties, ¬ SpellsNull p.column

end Scope

namespace Expr

open Fragment

variable {Γ : Catalog} {onKey : Scope → Option Nat → Except TranslationError Fragment}
  {s : Scope} {e : Expr} {f : Fragment}

/-- A column is written as no NULL. -/
theorem not_spellsNull_of_column (hnames : s.NamesNoNull Γ) {owner : EntityId} {property : Bytes}
    (h : s.column Γ owner property = .ok f) : ¬ SpellsNull f.sql := by
  obtain ⟨-, name, hname, rfl⟩ := Scope.column_eq_ok.1 h
  obtain ⟨hvisible, p, hp, rfl⟩ := Scope.resolve_eq_ok.1 hname
  rw [sql_ofText, Scope.written]
  split
  · exact SpellsNull.not_of_mem (b := Byte.point) (by simp [ascii]) (by decide)
  · exact hnames owner hvisible p (List.mem_of_find?_eq_some hp)

/-- A constant is written as NULL when it is. -/
theorem spellsNull_constant {v : Value} : SpellsNull (constant v).sql ↔ v.isNull = true := by
  rw [constant]
  split
  · rename_i hnull
    exact ⟨fun _ => hnull, fun _ => .word⟩
  · rename_i hvalue
    refine ⟨fun h => absurd h ?_, fun hnull => absurd hnull hvalue⟩
    exact SpellsNull.not_of_mem (b := Byte.question) (by simp [sql, Piece.sql]) (by decide)

/-- The blank sets a text off from the word NULL. -/
theorem not_spellsNull_of_blank (h : (32 : UInt8) ∈ f.sql) : ¬ SpellsNull f.sql :=
  SpellsNull.not_of_mem h (by decide)

/-- What calls a function is written as no NULL: some letter of its name is not in the word. -/
theorem not_spellsNull_of_call {name : Bytes} (hname : ∃ b ∈ name, b ∉ ascii "NUL()") :
    ¬ SpellsNull (ofText name ++ f).sql := by
  obtain ⟨b, hb, hother⟩ := hname
  exact SpellsNull.not_of_mem (b := b) (by simp [hb]) hother

/-- **What comes to NULL is what is written as NULL**, if that is so of group keys. The induction
is on the expression; of the other nodes, columns have their names, functions theirs, and all else
has a blank. -/
theorem spellsNull_emitWith (hnames : s.NamesNoNull Γ)
    (hkey : ∀ index f, onKey s index = .ok f →
      (SpellsNull f.sql ↔ s.ComesToNull (.key index)))
    (h : emitWith Γ onKey s e = .ok f) : SpellsNull f.sql ↔ s.ComesToNull e := by
  induction e generalizing f with
  | column owner property => exact iff_of_false (not_spellsNull_of_column hnames h) (by rintro ⟨⟩)
  | literal v =>
    obtain rfl := Except.ok.inj h
    rw [spellsNull_constant, Scope.comesToNull_literal]
  | truth e ih =>
    rw [ih h, Scope.comesToNull_truth]
  | key index => exact hkey index f h
  | raw sql params =>
    obtain rfl := Except.ok.inj h
    have hsql : Fragment.sql [.raw sql params] = sql := by simp [Fragment.sql, Piece.sql]
    rw [hsql, Scope.comesToNull_raw]
  -- the other nodes write a byte that NULL does not have, whatever their operands are
  | arith op l r =>
    obtain ⟨a, b, -, -, rfl⟩ := emitWith_arith_eq_ok.1 h
    exact iff_of_false (not_spellsNull_of_blank (by simp [ascii])) (by rintro ⟨⟩)
  | logic op l r =>
    obtain ⟨a, b, -, -, rfl⟩ := emitWith_logic_eq_ok.1 h
    exact iff_of_false (not_spellsNull_of_blank (by simp [ascii])) (by rintro ⟨⟩)
  | compare op l r =>
    refine iff_of_false (not_spellsNull_of_blank ?_) (by rintro ⟨⟩)
    rcases emitWith_compare_eq_ok.1 h with ⟨-, -, a, b, -, -, rfl⟩ | ⟨-, test, a, htest, -, rfl⟩ |
      ⟨-, -, test, b, htest, -, rfl⟩
    · simp [ascii]
    all_goals
      obtain ⟨negated, -, rfl⟩ := nullTest_eq_ok.1 htest
      cases negated <;> simp [word, ascii]
  | nullCheck negated e =>
    obtain ⟨a, -, rfl⟩ := emitWith_nullCheck_eq_ok.1 h
    refine iff_of_false (not_spellsNull_of_blank ?_) (by rintro ⟨⟩)
    cases negated <;> simp [word, ascii]
  | not e =>
    obtain ⟨a, -, rfl⟩ := emitWith_not_eq_ok.1 h
    exact iff_of_false (not_spellsNull_of_blank (by simp [word, ascii])) (by rintro ⟨⟩)
  | like e text anchor =>
    obtain ⟨a, -, rfl⟩ := emitWith_like_eq_ok.1 h
    exact iff_of_false (not_spellsNull_of_blank (by simp [word, ascii])) (by rintro ⟨⟩)
  | oneOf e items =>
    obtain ⟨a, -, rfl⟩ := emitWith_oneOf_eq_ok.1 h
    exact iff_of_false (not_spellsNull_of_blank (by simp [word, ascii])) (by rintro ⟨⟩)
  | call fn e =>
    obtain ⟨a, -, rfl⟩ := emitWith_call_eq_ok.1 h
    exact iff_of_false (not_spellsNull_of_call (by cases fn <;> decide)) (by rintro ⟨⟩)
  | countRows =>
    obtain ⟨-, rfl⟩ := emitWith_countRows_eq_ok.1 h
    exact iff_of_false (not_spellsNull_of_call (by decide)) (by rintro ⟨⟩)
  | aggregate fn e =>
    obtain ⟨-, a, -, rfl⟩ := emitWith_aggregate_eq_ok.1 h
    exact iff_of_false (not_spellsNull_of_call (by cases fn <;> decide)) (by rintro ⟨⟩)

/-! ## Group keys -/

/-- What comes to NULL outside groups is what is written as NULL there. -/
theorem spellsNull_ungrouped (hnames : s.NamesNoNull Γ) (hs : s.grouping = none)
    (h : e.emit Γ s = .ok f) : SpellsNull f.sql ↔ s.ComesToNull e := by
  refine spellsNull_emitWith hnames (fun index f hf => ?_) h
  rw [emitKey_eq, Scope.keyMember, hs] at hf
  cases hf

/-- **What comes to NULL is what is written as NULL.** -/
theorem spellsNull_iff (hnames : s.NamesNoNull Γ) (h : e.emit Γ s = .ok f) :
    SpellsNull f.sql ↔ s.ComesToNull e := by
  refine spellsNull_emitWith hnames (fun index f hf => ?_) h
  rw [emitKey_eq] at hf
  obtain ⟨k, hk, hoperand⟩ := Except.bind_eq_ok.1 hf
  obtain ⟨a, ha, rfl⟩ := emitOperand_eq_ok.1 hoperand
  rw [SpellsNull.parensIf_iff, spellsNull_ungrouped (s := s.ungrouped) hnames rfl ha,
    Scope.comesToNull_key hk]

/-- An operand is written as NULL when it comes to NULL. -/
theorem spellsNull_operand_iff (hnames : s.NamesNoNull Γ) (h : e.emitOperand Γ s = .ok f) :
    SpellsNull f.sql ↔ s.ComesToNull e := by
  obtain ⟨a, ha, rfl⟩ := emitOperand_eq_ok.1 h
  rw [SpellsNull.parensIf_iff, spellsNull_iff hnames ha]

/-! ## Comparisons -/

/-- What is emitted, and in which scopes, where an expression is emitted in a scope: its nodes, and
the nodes of the group keys that it refers to. -/
inductive Emits (s : Scope) (e : Expr) : Scope → Expr → Prop where
  /-- a node -/
  | node {n : Node} : n ∈ e.nodesFrom s.inAggregate →
      Emits s e { s with inAggregate := n.inAggregate } n.expr
  /-- a node of a group key -/
  | key {s' : Scope} {index : Option Nat} {k : Expr} {n : Node} : Emits s e s' (.key index) →
      s'.keyMember index = .ok k → n ∈ k.nodesFrom s'.inAggregate →
      Emits s e { s'.ungrouped with inAggregate := n.inAggregate } n.expr

variable {s' : Scope} {e' l r : Expr} {op : CompareOp}

/-- It is emitted there. -/
theorem Emits.exists_emit (hn : Emits s e s' e') (h : e.emit Γ s = .ok f) :
    ∃ g, e'.emit Γ s' = .ok g := by
  induction hn with
  | node hn => exact exists_emitWith_of_mem_nodes h hn
  | key _ hk hn ih =>
    obtain ⟨g, hg⟩ := ih
    obtain ⟨k, hk', hoperand⟩ := Except.bind_eq_ok.1 (emitKey_eq.symm.trans hg)
    obtain rfl := Except.ok.inj (hk'.symm.trans hk)
    obtain ⟨a, ha, -⟩ := emitOperand_eq_ok.1 hoperand
    exact exists_emitWith_of_mem_nodes ha hn

/-- The same entities take part there. -/
theorem Emits.visible_eq (hn : Emits s e s' e') : s'.visible = s.visible := by
  induction hn with
  | node _ => rfl
  | key _ _ _ ih => exact ih

/-- A comparison of two values is written as its operands with the operator between them. -/
theorem emit_compare_of_values (hl : l.isNullLiteral = false) (hr : r.isNullLiteral = false) :
    (compare op l r).emit Γ s = .ok f ↔
      ∃ a b, l.emitOperand Γ s = .ok a ∧ r.emitOperand Γ s = .ok b ∧
        f = a ++ ofText (ascii " " ++ op.text ++ ascii " ") ++ b := by
  rw [emit, emitWith_compare_eq_ok]
  simp only [hl, hr, Bool.false_eq_true, false_and, or_false, true_and, emitOperand_eq_ok, emit]
  constructor
  · rintro ⟨a, b, ha, hb, rfl⟩
    exact ⟨_, _, ⟨a, ha, rfl⟩, ⟨b, hb, rfl⟩, rfl⟩
  · rintro ⟨_, _, ⟨a, ha, rfl⟩, ⟨b, hb, rfl⟩, rfl⟩
    exact ⟨a, b, ha, hb, rfl⟩

/-- A comparison with the literal NULL is written as a null check of the other side. -/
theorem emit_compare_of_null (hnull : l.isNullLiteral = true ∨ r.isNullLiteral = true) :
    (compare op l r).emit Γ s = .ok f ↔
      ∃ a test, (if r.isNullLiteral then l else r).emitOperand Γ s = .ok a ∧
        nullTest op = .ok test ∧ f = a ++ test := by
  rw [emit, emitWith_compare_eq_ok]
  -- the right side is asked first: where both are the literal, the left one is checked
  cases hr : r.isNullLiteral with
  | true =>
    simp only [Bool.true_eq_false, false_and, and_false, or_false, false_or, true_and, if_true,
      emitOperand_eq_ok, emit]
    constructor
    · rintro ⟨test, a, htest, ha, rfl⟩
      exact ⟨_, test, ⟨a, ha, rfl⟩, htest, rfl⟩
    · rintro ⟨_, test, ⟨a, ha, rfl⟩, htest, rfl⟩
      exact ⟨test, a, htest, ha, rfl⟩
  | false =>
    have hl : l.isNullLiteral = true := hnull.resolve_right (by simp [hr])
    simp only [hl, Bool.true_eq_false, Bool.false_eq_true, false_and, false_or, true_and, if_false,
      emitOperand_eq_ok, emit]
    constructor
    · rintro ⟨test, a, htest, ha, rfl⟩
      exact ⟨_, test, ⟨a, ha, rfl⟩, htest, rfl⟩
    · rintro ⟨_, test, ⟨a, ha, rfl⟩, htest, rfl⟩
      exact ⟨test, a, htest, ha, rfl⟩

/-- The literal NULL is one word as an operand. -/
theorem length_of_isNullLiteral (he : e.isNullLiteral = true) (h : e.emitOperand Γ s = .ok f) :
    f.length = 1 := by
  cases e with
  | literal v =>
    obtain rfl : v = .null := Value.isNull_iff.1 he
    obtain rfl := Except.ok.inj h
    rfl
  | _ => cases he

/-- A null check is shorter than a comparison of the same operands. -/
theorem isNullLiteral_of_emit {a b : Fragment} (ha : l.emitOperand Γ s = .ok a)
    (hb : r.emitOperand Γ s = .ok b)
    (h : (compare op l r).emit Γ s =
      .ok (a ++ ofText (ascii " " ++ op.text ++ ascii " ") ++ b)) :
    l.isNullLiteral = false ∧ r.isNullLiteral = false := by
  by_contra hnot
  have hnull : l.isNullLiteral = true ∨ r.isNullLiteral = true := by
    rw [← Bool.not_eq_true, ← Bool.not_eq_true] at hnot
    tauto
  obtain ⟨a', test, ha', htest, hsame⟩ := (emit_compare_of_null hnull).1 h
  have htest : test.length = 1 := by
    obtain ⟨negated, -, rfl⟩ := nullTest_eq_ok.1 htest
    rfl
  -- the two texts are one, so they have as many pieces
  have hlength := congrArg List.length hsame
  simp only [List.length_append, ofText, List.length_singleton, htest] at hlength
  cases hr : r.isNullLiteral with
  | true =>
    rw [hr, if_pos rfl] at ha'
    obtain rfl := Except.ok.inj (ha.symm.trans ha')
    have := length_of_isNullLiteral hr hb
    omega
  | false =>
    rw [hr, if_neg Bool.false_ne_true] at ha'
    obtain rfl := Except.ok.inj (hb.symm.trans ha')
    have := length_of_isNullLiteral (hnull.resolve_right (by simp [hr])) ha
    omega

/-- **Which comparisons are written with NULL as an operand**: those of two sides that are not the
literal itself, where one of them comes to NULL all the same. A comparison with the literal is one
of the two equalities, and is written as a null check of the other side. -/
theorem compares_null_iff (h : e.emit Γ s = .ok f) (hnames : s.NamesNoNull Γ)
    (hn : Emits s e s' (.compare op l r)) :
    ((∃ a b, l.emitOperand Γ s' = .ok a ∧ r.emitOperand Γ s' = .ok b ∧
        (compare op l r).emit Γ s' =
          .ok (a ++ ofText (ascii " " ++ op.text ++ ascii " ") ++ b) ∧
        (SpellsNull a.sql ∨ SpellsNull b.sql)) ↔
      l.isNullLiteral = false ∧ r.isNullLiteral = false ∧
        (s'.ComesToNull l ∨ s'.ComesToNull r)) ∧
    (l.isNullLiteral = true ∨ r.isNullLiteral = true →
      ∃ a, (if r.isNullLiteral then l else r).emitOperand Γ s' = .ok a ∧
        ((op = .eq ∧ (compare op l r).emit Γ s' = .ok (a ++ word " IS NULL")) ∨
          (op = .ne ∧ (compare op l r).emit Γ s' = .ok (a ++ word " IS NOT NULL")))) := by
  have hnames' : s'.NamesNoNull Γ := by
    rw [Scope.NamesNoNull, hn.visible_eq]
    exact hnames
  obtain ⟨g, hg⟩ := hn.exists_emit h
  refine ⟨⟨?hidden, ?written⟩, ?checked⟩
  case hidden =>
    rintro ⟨a, b, ha, hb, hemit, hspells⟩
    obtain ⟨hl, hr⟩ := isNullLiteral_of_emit ha hb hemit
    rw [spellsNull_operand_iff hnames' ha, spellsNull_operand_iff hnames' hb] at hspells
    exact ⟨hl, hr, hspells⟩
  case written =>
    rintro ⟨hl, hr, hnull⟩
    obtain ⟨a, b, ha, hb, rfl⟩ := (emit_compare_of_values hl hr).1 hg
    rw [← spellsNull_operand_iff hnames' ha, ← spellsNull_operand_iff hnames' hb] at hnull
    exact ⟨a, b, ha, hb, hg, hnull⟩
  case checked =>
    intro hnull
    obtain ⟨a, test, ha, htest, rfl⟩ := (emit_compare_of_null hnull).1 hg
    obtain ⟨negated, hop, rfl⟩ := nullTest_eq_ok.1 htest
    refine ⟨a, ha, ?_⟩
    cases op with
    | eq =>
      obtain rfl := Option.some.inj hop
      exact .inl ⟨rfl, hg⟩
    | ne =>
      obtain rfl := Option.some.inj hop
      exact .inr ⟨rfl, hg⟩
    | lt | le | gt | ge => cases hop

/-- Users with a name. -/
def namedUsers : Catalog := Catalog.single (ascii "users") [(ascii "Name", ascii "name")]

/-- Users without groups. -/
def userScope : Scope := { visible := [0] }

/-- The name is compared with NULL, which was taken as a predicate before. -/
def hiddenTest : Expr := .compare .eq (.column 0 (ascii "Name")) (.truth (.literal .null))

/-- The name is compared with NULL openly and in hiding. -/
def bothTests : Expr :=
  .logic .and (.compare .ne (.column 0 (ascii "Name")) (.literal .null)) hiddenTest

theorem namesNoNull_userScope : userScope.NamesNoNull namedUsers := by
  intro owner howner p hp
  obtain rfl := List.mem_singleton.1 howner
  obtain rfl := List.mem_singleton.1 hp
  exact SpellsNull.not_of_mem (b := 97) (by decide) (by decide)

/-- The first test becomes a null check, the second one compares the name with NULL. -/
theorem compares_null_iff_bothTests :
    (∃ f, bothTests.emit namedUsers userScope = .ok f ∧
      f.sql = ascii "(name IS NOT NULL) AND (name = NULL)") ∧
    userScope.NamesNoNull namedUsers ∧
    Emits userScope bothTests userScope hiddenTest ∧
    (∃ a, (Expr.column 0 (ascii "Name")).emitOperand namedUsers userScope = .ok a ∧
      (compare .ne (.column 0 (ascii "Name")) (.literal .null)).emit namedUsers userScope =
        .ok (a ++ word " IS NOT NULL")) ∧
    ∃ a b, (Expr.column 0 (ascii "Name")).emitOperand namedUsers userScope = .ok a ∧
      (Expr.truth (.literal .null)).emitOperand namedUsers userScope = .ok b ∧
      hiddenTest.emit namedUsers userScope =
        .ok (a ++ ofText (ascii " " ++ CompareOp.eq.text ++ ascii " ") ++ b) ∧
      (SpellsNull a.sql ∨ SpellsNull b.sql) := by
  obtain ⟨f, hf, hsql⟩ : ∃ f, bothTests.emit namedUsers userScope = .ok f ∧
      f.sql = ascii "(name IS NOT NULL) AND (name = NULL)" := ⟨_, rfl, rfl⟩
  have hopen : Emits userScope bothTests userScope
      (.compare .ne (.column 0 (ascii "Name")) (.literal .null)) :=
    .node (n := ⟨_, false⟩) (List.mem_cons_of_mem _ List.mem_cons_self)
  have hhidden : Emits userScope bothTests userScope hiddenTest :=
    .node (n := ⟨_, false⟩)
      (List.mem_cons_of_mem _ (List.mem_append_right _ List.mem_cons_self))
  refine ⟨⟨f, hf, hsql⟩, namesNoNull_userScope, hhidden, ?checked, ?compared⟩
  case checked =>
    obtain ⟨a, ha, htest⟩ := (compares_null_iff hf namesNoNull_userScope hopen).2 (.inr rfl)
    rcases htest with ⟨hop, -⟩ | ⟨-, htest⟩
    · cases hop
    · exact ⟨a, ha, htest⟩
  case compared =>
    exact (compares_null_iff hf namesNoNull_userScope hhidden).1.2
      ⟨rfl, rfl, .inr (.truth (.literal rfl))⟩

/-- So **comparisons with NULL are emitted**: with NULL taken as a predicate, and with a group key
that is NULL. -/
theorem compares_with_null :
    (∃ f, hiddenTest.emit namedUsers userScope = .ok f ∧ f.sql = ascii "name = NULL") ∧
    (∃ f, (compare .lt (.key none) (.literal (.integer 1))).emit namedUsers
        { userScope with grouping := some [.literal .null] } = .ok f ∧
      f.sql = ascii "NULL < ?") ∧
    ¬ ∀ (Γ : Catalog) (s : Scope) (e : Expr) (f : Fragment), e.emit Γ s = .ok f → e.raws = [] →
      (∀ k ∈ s.grouping.getD [], k.raws = []) → s.NamesNoNull Γ →
      ∀ (s' : Scope) (op : CompareOp) (l r : Expr), Emits s e s' (.compare op l r) →
      ∀ a b, l.emitOperand Γ s' = .ok a → r.emitOperand Γ s' = .ok b →
        (compare op l r).emit Γ s' =
          .ok (a ++ ofText (ascii " " ++ op.text ++ ascii " ") ++ b) →
        ¬ SpellsNull a.sql ∧ ¬ SpellsNull b.sql := by
  refine ⟨⟨_, rfl, rfl⟩, ⟨_, rfl, rfl⟩, fun hclaim => ?_⟩
  have hnode : Emits userScope hiddenTest userScope hiddenTest :=
    .node (n := ⟨_, false⟩) List.mem_cons_self
  obtain ⟨-, hright⟩ := hclaim namedUsers userScope hiddenTest _ rfl rfl
    (List.forall_mem_nil _) namesNoNull_userScope userScope .eq _ _ hnode _ _ rfl rfl rfl
  exact hright .word

end Expr

end SqlPlan
