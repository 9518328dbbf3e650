import SqlPlan.Expr.References
import SqlPlan.Proofs.Emission

/-!
# Expressions without their data

Redaction takes the data out of an expression and leaves its form: a constant becomes a fixed one
unless it is NULL, the text of a LIKE becomes empty, and the parameters of a fragment of the caller
are only counted. `Expr.alike_emit` says that emission does not notice: it fails with the same
error or gives fragments that differ in nothing but the values they bind.

Whether a constant is NULL stays, for NULL is written as a keyword and turns a comparison into a
null check.
-/

namespace SqlPlan

/-! ## Redaction -/

/-- A value without its data: all that is left is whether it is NULL. -/
def Value.redact (v : Value) : Value := if v.isNull then .null else .integer 0

@[simp] theorem Value.isNull_redact (v : Value) : v.redact.isNull = v.isNull := by
  cases v <;> rfl

namespace Expr

/-- The expression without its data. -/
def redact : Expr → Expr
  | .column owner property => .column owner property
  | .literal v => .literal v.redact
  | .arith op l r => .arith op l.redact r.redact
  | .call fn e => .call fn e.redact
  | .countRows => .countRows
  | .aggregate fn e => .aggregate fn e.redact
  | .key index => .key index
  | .truth e => .truth e.redact
  | .nullCheck negated e => .nullCheck negated e.redact
  | .logic op l r => .logic op l.redact r.redact
  | .compare op l r => .compare op l.redact r.redact
  | .not e => .not e.redact
  | .like e _ anchor => .like e.redact [] anchor
  | .oneOf e items => .oneOf e.redact (items.map Value.redact)
  | .raw sql params => .raw sql (params.map fun _ => .null)

/-- Parentheses depend on the form of an expression, not on its data. -/
@[simp] theorem isCompound_redact (e : Expr) : e.redact.isCompound = e.isCompound := by
  induction e with
  | truth e ih => exact ih
  | column | literal | arith | call | countRows | aggregate | key | nullCheck | logic | compare
  | not | like | oneOf | raw => rfl

/-- The literal NULL stays one, and no other literal becomes one. -/
@[simp] theorem isNullLiteral_redact (e : Expr) : e.redact.isNullLiteral = e.isNullLiteral := by
  cases e with
  | literal v => exact v.isNull_redact
  | column | arith | call | countRows | aggregate | key | truth | nullCheck | logic | compare
  | not | like | oneOf | raw => rfl

@[simp] theorem isPredicate_redact (e : Expr) : e.redact.isPredicate = e.isPredicate := by
  cases e <;> rfl

@[simp] theorem isKey_redact (e : Expr) : e.redact.isKey = e.isKey := by
  cases e <;> rfl

/-- A value is taken as a predicate before or after its data is taken out. -/
theorem redact_toPredicate (e : Expr) : e.toPredicate.redact = e.redact.toPredicate := by
  rw [toPredicate, toPredicate, isPredicate_redact]
  split <;> rfl

theorem redact_negate (e : Expr) : e.negate.redact = e.redact.negate :=
  congrArg Expr.not (redact_toPredicate e)

/-- Redaction takes no column out of an expression and puts none in. -/
@[simp] theorem references_redact (e : Expr) : e.redact.references = e.references := by
  induction e with
  | column | literal | countRows | key | raw => rfl
  | arith op l r ihl ihr => exact congrArg₂ (· ++ ·) ihl ihr
  | logic op l r ihl ihr => exact congrArg₂ (· ++ ·) ihl ihr
  | compare op l r ihl ihr => exact congrArg₂ (· ++ ·) ihl ihr
  | aggregate fn e ih => exact congrArg ((⟨[], true⟩ : References) ++ ·) ih
  | call fn e ih => exact ih
  | truth e ih => exact ih
  | nullCheck negated e ih => exact ih
  | not e ih => exact ih
  | like e text anchor ih => exact ih
  | oneOf e items ih => exact ih

/-- A fragment of the caller is checked by its text and the number of its parameters. -/
theorem raw?_redact (sql : Bytes) (params : List Value) :
    raw? sql (params.map fun _ => .null) = redact <$> raw? sql params := by
  rw [raw?, raw?, List.length_map]
  split
  · rfl
  · split <;> rfl

end Expr

/-! ## Fragments up to the values they bind -/

/-- The piece with nothing left of the values it binds but their number. -/
def Piece.redact : Piece → Piece
  | .text s => .text s
  | .bound _ => .bound .null
  | .raw sql params => .raw sql (params.map fun _ => .null)

namespace Fragment

/-- The fragment with nothing left of the values it binds but their number. -/
def redact (f : Fragment) : Fragment := f.map Piece.redact

/-- The fragments differ in nothing but the values they bind. -/
def SameText (f g : Fragment) : Prop := f.redact = g.redact

theorem SameText.refl (f : Fragment) : SameText f f := rfl

/-- Fragments with the same text may be put one after the other, piece by piece. -/
theorem SameText.append {f f' g g' : Fragment} (hf : SameText f f') (hg : SameText g g') :
    SameText (f ++ g) (f' ++ g') := by
  rw [SameText, redact, redact, List.map_append, List.map_append]
  exact congrArg₂ (· ++ ·) hf hg

theorem SameText.parens {f f' : Fragment} (hf : SameText f f') :
    SameText f.parens f'.parens :=
  ((SameText.refl _).append hf).append (.refl _)

/-- Parentheses are the same around both where both need them. -/
theorem SameText.parensIf {f f' : Fragment} (needed : Bool) (hf : SameText f f') :
    SameText (f.parensIf needed) (f'.parensIf needed) := by
  rw [Fragment.parensIf, Fragment.parensIf]
  split
  · exact hf.parens
  · exact hf

/-- Fragments with the same text, joined by a separator, have the same text. The induction is on the
fragments after the first, which the separator stands before. -/
theorem SameText.joined (sep : Fragment) {fs fs' : List Fragment}
    (h : List.Forall₂ SameText fs fs') : SameText (joined sep fs) (joined sep fs') := by
  have hrest : ∀ {gs gs' : List Fragment}, List.Forall₂ SameText gs gs' →
      SameText (gs.flatMap (sep ++ ·)) (gs'.flatMap (sep ++ ·)) := by
    intro gs gs' hgs
    induction hgs with
    | nil => exact .refl _
    | cons hg _ ih => exact ((SameText.refl sep).append hg).append ih
  cases h with
  | nil => exact .refl _
  | cons hf hfs =>
    rw [Fragment.joined, Fragment.joined, Bytes.flatten_intersperse_cons,
      Bytes.flatten_intersperse_cons]
    exact hf.append (hrest hfs)

theorem sameText_bound (v w : Value) : SameText [.bound v] [.bound w] := rfl

/-- What an observer of the SQL sees does not depend on the values. -/
theorem SameText.sql_eq {f g : Fragment} (h : SameText f g) : f.sql = g.sql := by
  have hsql : ∀ f : Fragment, f.redact.sql = f.sql := by
    intro f
    rw [redact, sql, sql, List.flatMap_map]
    exact congrArg (List.flatMap · f) (funext fun x => by cases x <;> rfl)
  rw [← hsql f, h, hsql g]

theorem SameText.length_params_eq {f g : Fragment} (h : SameText f g) :
    f.params.length = g.params.length := by
  have hlength : ∀ f : Fragment, f.redact.params.length = f.params.length := by
    intro f
    rw [redact, params, params, List.flatMap_map, List.length_flatMap, List.length_flatMap]
    refine congrArg List.sum (List.map_congr_left fun x _ => ?_)
    cases x with
    | text s => rfl
    | bound v => rfl
    | raw sql params => exact List.length_map _
  rw [← hlength f, h, hlength g]

end Fragment

/-! ## Emission side by side -/

namespace Scope

/-- The scope with its group keys redacted. -/
def redact (s : Scope) : Scope := { s with grouping := s.grouping.map (·.map Expr.redact) }

variable {Γ : Catalog}

/-- Whether a column is a group key depends on the keys that are columns, and these have no data. -/
@[simp] theorem hasKey_redact (s : Scope) (owner : EntityId) (property : Bytes) :
    s.redact.hasKey owner property = s.hasKey owner property := by
  obtain ⟨visible, qualified, grouping, inAggregate⟩ := s
  cases grouping with
  | none => rfl
  | some keys =>
    rw [hasKey, hasKey, redact, Option.map_some, Option.getD_some, Option.getD_some, List.any_map]
    refine congrArg keys.any (funext fun k => ?_)
    cases k <;> rfl

theorem column_redact (s : Scope) (owner : EntityId) (property : Bytes) :
    s.redact.column Γ owner property = s.column Γ owner property := by
  have hwants : s.redact.wantsKey = s.wantsKey := by
    rw [wantsKey, wantsKey, redact, Option.isSome_map]
  rw [column, column, hasKey_redact, hwants]
  rfl

theorem allowAggregate_redact (s : Scope) (fn : Aggregate) :
    s.redact.allowAggregate fn = s.allowAggregate fn := by
  rw [allowAggregate, allowAggregate, redact, Option.isNone_map]

/-- The member of a group key that an index stands for is found by its position. -/
theorem keyMember_redact (s : Scope) (index : Option Nat) :
    s.redact.keyMember index = Expr.redact <$> s.keyMember index := by
  obtain ⟨visible, qualified, grouping, inAggregate⟩ := s
  cases grouping with
  | none => rfl
  | some keys =>
    cases index with
    | none =>
      match keys with
      | [] => rfl
      | [k] => rfl
      | _ :: _ :: _ => rfl
    | some i =>
      simp only [keyMember, redact, Option.map_some, List.getElem?_map, List.length_map]
      cases keys[i]? <;> rfl

end Scope

namespace Expr

open Fragment

variable {Γ : Catalog}

/-- A constant is bound or written as NULL, and redaction keeps which of the two. -/
theorem sameText_constant (v : Value) : SameText (constant v) (constant v.redact) := by
  cases v <;> rfl

/-- **Emission does not see data**, if references to group keys do not. The induction is on the
expression; redaction keeps what decides about parentheses and null checks. -/
theorem alike_emitWith {onKey onKey' : Scope → Option Nat → Except TranslationError Fragment}
    (hkey : ∀ s i, Except.Alike SameText (onKey s i) (onKey' s.redact i)) (s : Scope) (e : Expr) :
    Except.Alike SameText (emitWith Γ onKey s e) (emitWith Γ onKey' s.redact e.redact) := by
  induction e generalizing s with
  | column owner property =>
    rw [redact, emitWith, emitWith, Scope.column_redact]
    exact Except.Alike.refl SameText.refl _
  | literal v => exact .ok (sameText_constant v)
  | arith op l r ihl ihr =>
    refine (ihl s).bind fun _ _ ha => (ihr s).bind fun _ _ hb => .ok ?_
    rw [isCompound_redact, isCompound_redact]
    exact ((ha.parensIf _).append (.refl _)).append (hb.parensIf _)
  | call fn e ih => exact (ih s).bind fun _ _ ha => .ok ((SameText.refl _).append ha.parens)
  | countRows =>
    rw [redact, emitWith, emitWith, Scope.allowAggregate_redact]
    exact Except.Alike.refl SameText.refl _
  | aggregate fn e ih =>
    rw [redact, emitWith, emitWith, Scope.allowAggregate_redact]
    refine (Except.Alike.refl (R := Eq) (fun _ => rfl) (s.allowAggregate fn)).bind fun _ _ _ => ?_
    exact (ih s.insideAggregate).bind fun _ _ ha => .ok ((SameText.refl _).append ha.parens)
  | key index => exact hkey s index
  | truth e ih => exact ih s
  | nullCheck negated e ih =>
    refine (ih s).bind fun _ _ ha => .ok ?_
    rw [isCompound_redact]
    exact (ha.parensIf _).append (.refl _)
  | logic op l r ihl ihr =>
    refine (ihl s).bind fun _ _ ha => (ihr s).bind fun _ _ hb => .ok ?_
    exact (ha.parens.append (.refl _)).append hb.parens
  | compare op l r ihl ihr =>
    rw [redact, emitWith, emitWith, isNullLiteral_redact, isNullLiteral_redact,
      isCompound_redact, isCompound_redact]
    -- redaction leaves the literal NULL where it is, so both sides take the same branch
    have htest := Except.Alike.refl SameText.refl (nullTest op)
    split
    · refine htest.bind fun _ _ ht => ?_
      split
      · exact (ihl s).bind fun _ _ ha => .ok ((ha.parensIf _).append ht)
      · exact (ihr s).bind fun _ _ hb => .ok ((hb.parensIf _).append ht)
    · refine (ihl s).bind fun _ _ ha => (ihr s).bind fun _ _ hb => .ok ?_
      exact ((ha.parensIf _).append (.refl _)).append (hb.parensIf _)
  | not e ih => exact (ih s).bind fun _ _ ha => .ok ((SameText.refl _).append ha.parens)
  | like e text anchor ih =>
    refine (ih s).bind fun _ _ ha => .ok ?_
    rw [isCompound_redact]
    exact ((ha.parensIf _).append (.refl _)).append (sameText_bound _ _)
  | oneOf e items ih =>
    refine (ih s).bind fun _ _ ha => .ok ?_
    rw [isCompound_redact, List.map_map]
    have hitems : List.Forall₂ SameText (items.map constant)
        (items.map (constant ∘ Value.redact)) := by
      rw [List.forall₂_map_left_iff, List.forall₂_map_right_iff, List.forall₂_same]
      exact fun v _ => sameText_constant v
    exact ((ha.parensIf _).append (.refl _)).append (SameText.joined _ hitems).parens
  | raw sql params =>
    refine .ok ?_
    simp [SameText, Fragment.redact, Piece.redact]

/-- A reference to a group key is emitted as the key itself, so the keys are redacted with the
expression. -/
theorem alike_emitKey (s : Scope) (index : Option Nat) :
    Except.Alike SameText (emitKey Γ s index) (emitKey Γ s.redact index) := by
  rw [emitKey, emitKey, Scope.keyMember_redact]
  cases s.keyMember index with
  | error e => exact .error e
  | ok k =>
    -- a group key is emitted outside groups, where it meets no further key
    refine (alike_emitWith (fun _ _ => .error _) s.ungrouped k).bind fun _ _ ha => .ok ?_
    rw [isCompound_redact]
    exact ha.parensIf _

/-- **Emission does not see data.** -/
theorem alike_emit (s : Scope) (e : Expr) :
    Except.Alike SameText (e.emit Γ s) (e.redact.emit Γ s.redact) :=
  alike_emitWith alike_emitKey s e

/-- An operand gets its parentheses with its data and without. -/
theorem alike_emitOperand (s : Scope) (e : Expr) :
    Except.Alike SameText (e.emitOperand Γ s) (e.redact.emitOperand Γ s.redact) := by
  rw [emitOperand, emitOperand, isCompound_redact]
  exact (alike_emit s e).bind fun _ _ ha => .ok (ha.parensIf _)

end Expr

end SqlPlan
