import SqlPlan.Proofs.Composition

/-!
# Fragments that keep to themselves

A scanner of placeholders goes over a whole statement and carries the quote that is open. A piece
of SQL is `Settled` when nothing of that carries over to the next one: it ends outside quotes and
has as many placeholders as it binds values. `Fragment.Settled.expand_eq_inlined` says that a
statement made of such pieces is expanded piece by piece, and `Fragment.composes_settled` that
emission keeps to such pieces.

Two things could come between. A name with a quote or a question mark would be taken for more than
a name, so names are `Inert`; and a fragment of the caller that leaves a quote open would hide what
follows it. Nothing else that is emitted has a byte the scanner looks at.
-/

namespace SqlPlan

/-! ## Text that a scanner passes over -/

namespace Placeholder

/-- The text has none of the bytes that a scanner of placeholders looks at. -/
def Inert (s : Bytes) : Prop := ∀ b ∈ s, b ≠ Byte.question ∧ isQuote b = false

instance (s : Bytes) : Decidable (Inert s) := List.decidableBAll _ s

theorem inert_append {s t : Bytes} : Inert (s ++ t) ↔ Inert s ∧ Inert t :=
  List.forall_mem_append

/-- Inert texts stay so together. -/
theorem Inert.append {s t : Bytes} (hs : Inert s) (ht : Inert t) : Inert (s ++ t) :=
  inert_append.2 ⟨hs, ht⟩

/-- An inert text opens no quote. -/
theorem Inert.scan_eq {s : Bytes} (h : Inert s) : scan none s = none := by
  induction s with
  | nil => rfl
  | cons b s ih =>
    obtain ⟨hb, hs⟩ := List.forall_mem_cons.1 h
    rw [scan, List.foldl_cons, step, hb.2]
    exact ih hs

/-- An inert text has no placeholder. -/
theorem Inert.count_eq {s : Bytes} (h : Inert s) : count s = 0 := by
  induction s with
  | nil => rfl
  | cons b s ih =>
    obtain ⟨hb, hs⟩ := List.forall_mem_cons.1 h
    rw [count] at ih ⊢
    rw [countFrom, step, hb.2]
    simpa [isPlaceholder, hb.1] using ih hs

/-- Where the first text takes all of its values, the second one takes the others. -/
theorem expandFrom_append {q : OpenQuote} {s t : Bytes} {us vs : List Value}
    (h : countFrom q s = us.length) :
    expandFrom q (s ++ t) (us ++ vs) = expandFrom q s us ++ expandFrom (scan q s) t vs := by
  induction s generalizing q us with
  | nil =>
    obtain rfl := List.eq_nil_of_length_eq_zero h.symm
    rfl
  | cons b s ih =>
    rw [countFrom] at h
    cases hb : isPlaceholder q b with
    | true =>
      -- the placeholder takes a value of the first text, which therefore has one
      cases us with
      | nil => simp [hb] at h
      | cons u us =>
        have hs : countFrom (step q b) s = us.length := by
          simp only [hb, if_true, List.length_cons] at h
          omega
        simp only [List.cons_append, expandFrom, hb, if_true, ih hs, List.append_assoc]
        rfl
    | false =>
      have hs : countFrom (step q b) s = us.length := by simpa [hb] using h
      -- a byte that is no placeholder is copied, whether values are left or not
      have hstep : ∀ (r : Bytes) (ws : List Value),
          expandFrom q (b :: r) ws = b :: expandFrom (step q b) r ws := by
        intro r ws
        cases ws with
        | nil => rfl
        | cons w ws => simp [expandFrom, hb]
      rw [List.cons_append, hstep, hstep, ih hs]
      rfl

end Placeholder

/-! ## Fragments whose pieces keep to themselves -/

/-- The piece binds a value for each of its placeholders, and ends outside quotes. -/
def Piece.Settled (x : Piece) : Prop :=
  Placeholder.count x.sql = x.params.length ∧ Placeholder.scan none x.sql = none

instance (x : Piece) : Decidable x.Settled := inferInstanceAs (Decidable (_ ∧ _))

/-- The text of a piece with its values written where they are bound. -/
def Piece.inlined : Piece → Bytes
  | .text s => s
  | .bound v => v.literal
  | .raw sql params => Placeholder.expand sql params

/-- Expanding a piece on its own writes its values where they are bound. -/
theorem Piece.expand_eq_inlined (x : Piece) : Placeholder.expand x.sql x.params = x.inlined := by
  cases x with
  | text s => exact Placeholder.expandFrom_nil none s
  | bound v => exact List.append_nil _
  | raw sql params => rfl

namespace Fragment

/-- Every piece of the fragment is settled. -/
def Settled (f : Fragment) : Prop := ∀ x ∈ f, x.Settled

instance (f : Fragment) : Decidable f.Settled := List.decidableBAll _ f

/-- The text of a fragment with every value written as a literal at the place it is bound. -/
def inlined (f : Fragment) : Bytes := f.flatMap Piece.inlined

/-- Settled fragments stay so together, since each begins where no quote is open. -/
theorem Settled.append {f g : Fragment} (hf : f.Settled) (hg : g.Settled) : (f ++ g).Settled :=
  List.forall_mem_append.2 ⟨hf, hg⟩

/-- An inert text binds nothing and has no placeholder. -/
theorem settled_ofText {s : Bytes} (h : Placeholder.Inert s) : (ofText s).Settled :=
  List.forall_mem_singleton.2 ⟨h.count_eq, h.scan_eq⟩

theorem settled_bound (v : Value) : Settled [.bound v] :=
  List.forall_mem_singleton.2 ⟨rfl, rfl⟩

theorem Settled.parens {f : Fragment} (hf : f.Settled) : f.parens.Settled :=
  (Settled.append (by decide) hf).append (by decide)

/-- **Emission keeps to settled pieces**: none of its words has a byte that a scanner of
placeholders looks at. -/
theorem composes_settled : Composes Placeholder.Inert Settled where
  nil := List.forall_mem_nil _
  append := Settled.append
  parens := Settled.parens
  bound := settled_bound
  ofText := settled_ofText
  text_nil := List.forall_mem_nil _
  text_append := Placeholder.Inert.append
  call fn := by cases fn <;> decide
  aggregate fn := by cases fn <;> decide
  arith op := by cases op <;> decide
  compare op := by cases op <;> decide
  logic op := by cases op <;> decide
  words := by decide

/-- **A settled fragment is expanded to what it writes**: the scan goes over its pieces one by one,
starting each outside quotes with the values of that piece in front. -/
theorem Settled.expand_eq_inlined {f : Fragment} (h : f.Settled) :
    Placeholder.count f.sql = f.params.length ∧ f.statement.expanded = f.inlined := by
  induction f with
  | nil => exact ⟨rfl, rfl⟩
  | cons x f ih =>
    obtain ⟨⟨hcount, hscan⟩, hf⟩ := List.forall_mem_cons.1 h
    obtain ⟨ihcount, ihexpand⟩ := ih hf
    have hsql : sql (x :: f) = x.sql ++ sql f := rfl
    have hparams : params (x :: f) = x.params ++ params f := rfl
    constructor
    · rw [hsql, hparams, Placeholder.count, Placeholder.countFrom_append, hscan,
        List.length_append, ← hcount, ← ihcount]
      rfl
    · rw [Statement.expanded, Placeholder.expand] at ihexpand ⊢
      change Placeholder.expandFrom none (sql (x :: f)) (params (x :: f)) = _
      rw [hsql, hparams, Placeholder.expandFrom_append hcount, hscan]
      exact congrArg₂ (· ++ ·) x.expand_eq_inlined ihexpand

end Fragment

/-! ## Expressions -/

namespace Expr

open Fragment Placeholder

variable {Γ : Catalog}

/-- The names of the expression are inert, and its fragments of the caller are settled. -/
structure Legible (Γ : Catalog) (e : Expr) : Prop where
  /-- no name has a quote or a question mark -/
  names : ∀ n ∈ e.names Γ, Inert n
  /-- every fragment of the caller keeps to itself -/
  raws : ∀ r ∈ e.raws, (Piece.raw r.1 r.2).Settled

theorem Legible.toPredicate {e : Expr} (h : e.Legible Γ) : e.toPredicate.Legible Γ :=
  ⟨(names_toPredicate e).symm ▸ h.names, (raws_toPredicate e).symm ▸ h.raws⟩

/-- What a legible expression takes from elsewhere is settled. -/
theorem Legible.spelled {e : Expr} (h : e.Legible Γ) : e.Spelled Inert Settled Γ :=
  ⟨h.names, fun r hr => List.forall_mem_singleton.2 (h.raws r hr)⟩

end Expr

end SqlPlan
