import SqlPlan.Expr.References
import SqlPlan.Proofs.Emission

/-!
# The normal form of an expression

Different expressions are emitted alike where they differ in what the SQL does not show: a value
taken as a predicate is written as the value, a comparison with the literal NULL as a null check,
and of a text to be found only its pattern is bound. `Expr.normal` forgets just that, and
`Expr.emitWith_eq_write` says that emission is the writing of the normal form, where each column
has the name that the scope gives it.

A comparison counts as one with NULL when one of its sides is the literal itself. A NULL taken as a
predicate is hidden from the comparison above it, in emission as in the normal form.
-/

namespace SqlPlan

/-- Expressions up to what emission does not show, over columns of any kind. -/
inductive NormalForm (κ : Type) where
  /-- a column -/
  | column (c : κ)
  /-- a constant -/
  | literal (v : Value)
  /-- arithmetic -/
  | arith (op : ArithOp) (l r : NormalForm κ)
  /-- a function of a text -/
  | call (fn : TextFunction) (a : NormalForm κ)
  /-- the number of rows of a group -/
  | countRows
  /-- a function over the rows of a group -/
  | aggregate (fn : Aggregate) (a : NormalForm κ)
  /-- a member of the group key, or all of it -/
  | key (index : Option Nat)
  /-- is the value NULL, or is it not -/
  | nullCheck (negated : Bool) (a : NormalForm κ)
  /-- two predicates together -/
  | logic (op : LogicOp) (l r : NormalForm κ)
  /-- a comparison -/
  | compare (op : CompareOp) (l r : NormalForm κ)
  /-- the opposite of a predicate -/
  | not (a : NormalForm κ)
  /-- a text that fits a pattern -/
  | like (a : NormalForm κ) (pattern : Bytes)
  /-- a value among some -/
  | oneOf (a : NormalForm κ) (items : List Value)
  /-- SQL of the caller, with its parameters -/
  | raw (sql : Bytes) (params : List Value)
deriving DecidableEq

/-- The null check that a comparison with NULL stands for; an order has none. -/
def CompareOp.nullCheck? : CompareOp → Option Bool
  | .eq => some false
  | .ne => some true
  | .lt | .le | .gt | .ge => none

namespace Expr

/-- **The normal form**: no value marked as a predicate, null checks in place of comparisons with
NULL, patterns in place of texts with an anchor. -/
def normal : Expr → NormalForm ColumnRef
  | .column owner property => .column ⟨owner, property⟩
  | .literal v => .literal v
  | .arith op l r => .arith op l.normal r.normal
  | .call fn e => .call fn e.normal
  | .countRows => .countRows
  | .aggregate fn e => .aggregate fn e.normal
  | .key index => .key index
  | .truth e => e.normal
  | .nullCheck negated e => .nullCheck negated e.normal
  | .logic op l r => .logic op l.normal r.normal
  | .compare op l r =>
    match op.nullCheck? with
    | none => .compare op l.normal r.normal
    | some negated =>
      if r.isNullLiteral then .nullCheck negated l.normal
      else if l.isNullLiteral then .nullCheck negated r.normal
      else .compare op l.normal r.normal
  | .not e => .not e.normal
  | .like e text anchor => .like e.normal (anchor.pattern text)
  | .oneOf e items => .oneOf e.normal items
  | .raw sql params => .raw sql params

/-- The expression has no fragment of the caller and no reference to a group key. -/
def isPlain : Expr → Bool
  | .column .. | .literal _ | .countRows => true
  | .arith _ l r | .logic _ l r | .compare _ l r => l.isPlain && r.isPlain
  | .call _ e | .aggregate _ e | .truth e | .nullCheck _ e | .not e | .like e _ _
  | .oneOf e _ => e.isPlain
  | .key _ | .raw .. => false

end Expr

namespace NormalForm

open Fragment

variable {κ κ' : Type}

/-- Does the form need parentheses as an operand? -/
def isCompound : NormalForm κ → Bool
  | .column _ | .literal _ | .call .. | .countRows | .aggregate .. | .key _ => false
  | .arith .. | .nullCheck .. | .logic .. | .compare .. | .not _ | .like .. | .oneOf ..
  | .raw .. => true

/-- The form with its columns renamed. -/
def map (f : κ → κ') : NormalForm κ → NormalForm κ'
  | .column c => .column (f c)
  | .literal v => .literal v
  | .arith op l r => .arith op (l.map f) (r.map f)
  | .call fn a => .call fn (a.map f)
  | .countRows => .countRows
  | .aggregate fn a => .aggregate fn (a.map f)
  | .key index => .key index
  | .nullCheck negated a => .nullCheck negated (a.map f)
  | .logic op l r => .logic op (l.map f) (r.map f)
  | .compare op l r => .compare op (l.map f) (r.map f)
  | .not a => .not (a.map f)
  | .like a pattern => .like (a.map f) pattern
  | .oneOf a items => .oneOf (a.map f) items
  | .raw sql params => .raw sql params

/-- The columns of a form, from left to right. -/
def columns : NormalForm κ → List κ
  | .column c => [c]
  | .literal _ | .countRows | .key _ | .raw .. => []
  | .arith _ l r | .logic _ l r | .compare _ l r => l.columns ++ r.columns
  | .call _ a | .aggregate _ a | .nullCheck _ a | .not a | .like a _ | .oneOf a _ => a.columns

/-- The SQL of a form whose columns are names. A reference to a group key has none of its own. -/
def write : NormalForm Bytes → Fragment
  | .column name => ofText name
  | .literal v => Expr.constant v
  | .arith op l r =>
    parensIf l.isCompound l.write ++ ofText (ascii " " ++ op.text ++ ascii " ") ++
      parensIf r.isCompound r.write
  | .call fn a => ofText fn.text ++ parens a.write
  | .countRows => ofText Aggregate.count.text ++ word "(*)"
  | .aggregate fn a => ofText fn.text ++ parens a.write
  | .key _ => []
  | .nullCheck negated a =>
    parensIf a.isCompound a.write ++ word (if negated then " IS NOT NULL" else " IS NULL")
  | .logic op l r =>
    parens l.write ++ ofText (ascii " " ++ op.text ++ ascii " ") ++ parens r.write
  | .compare op l r =>
    parensIf l.isCompound l.write ++ ofText (ascii " " ++ op.text ++ ascii " ") ++
      parensIf r.isCompound r.write
  | .not a => word "NOT " ++ parens a.write
  | .like a pattern => parensIf a.isCompound a.write ++ word " LIKE " ++ [.bound (.text pattern)]
  | .oneOf a items =>
    parensIf a.isCompound a.write ++ word " IN " ++
      parens (joined (word ", ") (items.map Expr.constant))
  | .raw sql params => [.raw sql params]

@[simp] theorem isCompound_map (f : κ → κ') (a : NormalForm κ) :
    (a.map f).isCompound = a.isCompound := by
  cases a <;> rfl

/-- Renaming there and back leaves a form as it is. -/
theorem map_map_eq_self {f : κ → κ'} {g : κ' → κ} {a : NormalForm κ}
    (h : ∀ c ∈ a.columns, g (f c) = c) : (a.map f).map g = a := by
  induction a with
  | column c => exact congrArg NormalForm.column (h c (List.mem_singleton.2 rfl))
  | literal v => rfl
  | countRows => rfl
  | key index => rfl
  | raw sql params => rfl
  | arith op l r ihl ihr =>
    obtain ⟨hl, hr⟩ := List.forall_mem_append.1 h
    exact congrArg₂ (NormalForm.arith op) (ihl hl) (ihr hr)
  | logic op l r ihl ihr =>
    obtain ⟨hl, hr⟩ := List.forall_mem_append.1 h
    exact congrArg₂ (NormalForm.logic op) (ihl hl) (ihr hr)
  | compare op l r ihl ihr =>
    obtain ⟨hl, hr⟩ := List.forall_mem_append.1 h
    exact congrArg₂ (NormalForm.compare op) (ihl hl) (ihr hr)
  | call fn a ih => exact congrArg (NormalForm.call fn) (ih h)
  | aggregate fn a ih => exact congrArg (NormalForm.aggregate fn) (ih h)
  | nullCheck negated a ih => exact congrArg (NormalForm.nullCheck negated) (ih h)
  | not a ih => exact congrArg NormalForm.not (ih h)
  | like a pattern ih => exact congrArg (NormalForm.like · pattern) (ih h)
  | oneOf a items ih => exact congrArg (NormalForm.oneOf · items) (ih h)

end NormalForm

/-! ## Emission writes the normal form -/

/-- The name of a column in a scope; a column that the scope does not resolve has none. -/
def Scope.nameOf (Γ : Catalog) (s : Scope) (c : ColumnRef) : Bytes :=
  (s.resolve Γ c.owner c.property).toOption.getD []

namespace Expr

open Fragment NormalForm

variable {Γ : Catalog} {onKey : Scope → Option Nat → Except TranslationError Fragment}

/-- Only equality and inequality test for NULL. -/
theorem nullTest_eq_ok {op : CompareOp} {f : Fragment} :
    nullTest op = .ok f ↔ ∃ negated, op.nullCheck? = some negated ∧
      f = word (if negated then " IS NOT NULL" else " IS NULL") := by
  cases op <;> simp [nullTest, CompareOp.nullCheck?, eq_comm]

/-- A comparison stays one, or becomes the null check of one of its sides. -/
theorem normal_compare_cases (op : CompareOp) (l r : Expr) :
    (Expr.compare op l r).normal = .compare op l.normal r.normal ∨
    ∃ negated, (Expr.compare op l r).normal = .nullCheck negated l.normal ∨
      (Expr.compare op l r).normal = .nullCheck negated r.normal := by
  rw [normal]
  split
  · exact Or.inl rfl
  · split
    · exact Or.inr ⟨_, Or.inl rfl⟩
    · split
      · exact Or.inr ⟨_, Or.inr rfl⟩
      · exact Or.inl rfl

@[simp] theorem isCompound_normal (e : Expr) : e.normal.isCompound = e.isCompound := by
  induction e with
  | truth e ih => exact ih
  | compare op l r =>
    rcases normal_compare_cases op l r with h | ⟨negated, h | h⟩ <;> rw [h] <;> rfl
  | column | literal | arith | call | countRows | aggregate | key | nullCheck | logic | not
  | like | oneOf | raw => rfl

/-- A comparison of two values that are no NULL literals stays one. -/
theorem normal_compare {op : CompareOp} {l r : Expr} (hl : l.isNullLiteral = false)
    (hr : r.isNullLiteral = false) :
    (Expr.compare op l r).normal = .compare op l.normal r.normal := by
  rw [normal, hl, hr]
  split <;> rfl

/-- The columns of the normal form are among those the expression refers to. -/
theorem mem_references_of_mem_normal {e : Expr} {c : ColumnRef} (h : c ∈ e.normal.columns) :
    c ∈ e.references.columns := by
  induction e with
  | column | literal | countRows | key | raw => exact h
  | arith op l r ihl ihr => exact List.mem_append.2 ((List.mem_append.1 h).imp ihl ihr)
  | logic op l r ihl ihr => exact List.mem_append.2 ((List.mem_append.1 h).imp ihl ihr)
  | compare op l r ihl ihr =>
    refine List.mem_append.2 (Or.imp ihl ihr ?_)
    -- a null check keeps the columns of one side only
    rcases normal_compare_cases op l r with heq | ⟨negated, heq | heq⟩
    · rw [heq] at h
      exact List.mem_append.1 h
    · rw [heq] at h
      exact Or.inl h
    · rw [heq] at h
      exact Or.inr h
  | aggregate fn e ih => exact ih h
  | call fn e ih => exact ih h
  | truth e ih => exact ih h
  | nullCheck negated e ih => exact ih h
  | not e ih => exact ih h
  | like e text anchor ih => exact ih h
  | oneOf e items ih => exact ih h

/-- **Emission writes the normal form**, and resolves every column of it. The induction is on the
expression; the scope changes only inside an aggregate, where columns keep their names. -/
theorem emitWith_eq_write {s : Scope} {e : Expr} {f : Fragment} (he : e.isPlain = true)
    (h : emitWith Γ onKey s e = .ok f) :
    f = (e.normal.map (s.nameOf Γ)).write ∧
      ∀ c ∈ e.normal.columns, s.resolve Γ c.owner c.property = .ok (s.nameOf Γ c) := by
  induction e generalizing s f with
  | column owner property =>
    obtain ⟨-, n, hn, rfl⟩ := Scope.column_eq_ok.1 h
    have hname : s.nameOf Γ ⟨owner, property⟩ = n := by rw [Scope.nameOf, hn]; rfl
    refine ⟨by rw [normal, NormalForm.map, write, hname], ?_⟩
    intro c hc
    obtain rfl := List.mem_singleton.1 hc
    rw [hname]
    exact hn
  | literal v =>
    obtain rfl := Except.ok.inj h
    exact ⟨rfl, List.forall_mem_nil _⟩
  | arith op l r ihl ihr =>
    obtain ⟨a, b, ha, hb, rfl⟩ := emitWith_arith_eq_ok.1 h
    obtain ⟨hpl, hpr⟩ := Bool.and_eq_true_iff.1 he
    obtain ⟨rfl, hl⟩ := ihl hpl ha
    obtain ⟨rfl, hr⟩ := ihr hpr hb
    refine ⟨?_, List.forall_mem_append.2 ⟨hl, hr⟩⟩
    simp only [normal, NormalForm.map, write, isCompound_map, isCompound_normal]
  | call fn e ih =>
    obtain ⟨a, ha, rfl⟩ := emitWith_call_eq_ok.1 h
    obtain ⟨rfl, hc⟩ := ih he ha
    exact ⟨rfl, hc⟩
  | countRows =>
    obtain ⟨-, rfl⟩ := emitWith_countRows_eq_ok.1 h
    exact ⟨rfl, List.forall_mem_nil _⟩
  | aggregate fn e ih =>
    obtain ⟨-, a, ha, rfl⟩ := emitWith_aggregate_eq_ok.1 h
    obtain ⟨rfl, hc⟩ := ih (s := s.insideAggregate) he ha
    exact ⟨rfl, hc⟩
  | key index => cases he
  | truth e ih => exact ih he h
  | nullCheck negated e ih =>
    obtain ⟨a, ha, rfl⟩ := emitWith_nullCheck_eq_ok.1 h
    obtain ⟨rfl, hc⟩ := ih he ha
    refine ⟨?_, hc⟩
    simp only [normal, NormalForm.map, write, isCompound_map, isCompound_normal]
  | logic op l r ihl ihr =>
    obtain ⟨a, b, ha, hb, rfl⟩ := emitWith_logic_eq_ok.1 h
    obtain ⟨hpl, hpr⟩ := Bool.and_eq_true_iff.1 he
    obtain ⟨rfl, hl⟩ := ihl hpl ha
    obtain ⟨rfl, hr⟩ := ihr hpr hb
    exact ⟨rfl, List.forall_mem_append.2 ⟨hl, hr⟩⟩
  | compare op l r ihl ihr =>
    obtain ⟨hpl, hpr⟩ := Bool.and_eq_true_iff.1 he
    -- emission and the normal form ask in the same order which side is the literal NULL
    rcases emitWith_compare_eq_ok.1 h with ⟨hnl, hnr, a, b, ha, hb, rfl⟩ |
      ⟨hnr, test, a, htest, ha, rfl⟩ | ⟨hnl, hnr, test, b, htest, hb, rfl⟩
    · obtain ⟨rfl, hl⟩ := ihl hpl ha
      obtain ⟨rfl, hr⟩ := ihr hpr hb
      rw [normal_compare hnl hnr]
      refine ⟨?_, List.forall_mem_append.2 ⟨hl, hr⟩⟩
      simp only [NormalForm.map, write, isCompound_map, isCompound_normal]
    · obtain ⟨negated, hop, rfl⟩ := nullTest_eq_ok.1 htest
      obtain ⟨rfl, hl⟩ := ihl hpl ha
      have hnormal : (Expr.compare op l r).normal = .nullCheck negated l.normal := by
        simp only [normal, hop, hnr, if_true]
      rw [hnormal]
      refine ⟨?_, hl⟩
      simp only [NormalForm.map, write, isCompound_map, isCompound_normal]
    · obtain ⟨negated, hop, rfl⟩ := nullTest_eq_ok.1 htest
      obtain ⟨rfl, hr⟩ := ihr hpr hb
      have hnormal : (Expr.compare op l r).normal = .nullCheck negated r.normal := by
        simp only [normal, hop, hnr, hnl, Bool.false_eq_true, if_false, if_true]
      rw [hnormal]
      refine ⟨?_, hr⟩
      simp only [NormalForm.map, write, isCompound_map, isCompound_normal]
  | not e ih =>
    obtain ⟨a, ha, rfl⟩ := emitWith_not_eq_ok.1 h
    obtain ⟨rfl, hc⟩ := ih he ha
    exact ⟨rfl, hc⟩
  | like e text anchor ih =>
    obtain ⟨a, ha, rfl⟩ := emitWith_like_eq_ok.1 h
    obtain ⟨rfl, hc⟩ := ih he ha
    refine ⟨?_, hc⟩
    simp only [normal, NormalForm.map, write, isCompound_map, isCompound_normal]
  | oneOf e items ih =>
    obtain ⟨a, ha, rfl⟩ := emitWith_oneOf_eq_ok.1 h
    obtain ⟨rfl, hc⟩ := ih he ha
    refine ⟨?_, hc⟩
    simp only [normal, NormalForm.map, write, isCompound_map, isCompound_normal]
  | raw sql params => cases he

end Expr

end SqlPlan
