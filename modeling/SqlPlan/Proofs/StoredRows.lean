import SqlPlan.Entity.Materialize
import SqlPlan.Entity.Write
import SqlPlan.Proofs.Maps
import SqlPlan.Proofs.Outcome

/-!
# Records that are stored and read again

A record is stored as a row with one cell for each property (`Entity.stored`). Reading that row
gives the record back, field by field: each type reads what it stored (`FieldType.read_store`), and
where the columns differ no property reads the cell of another. There is one exception, which is
loud: an unsigned integer of 64 bits is stored as a signed one, so a large one comes back negative
and is refused (`FieldType.read_store_of_exceeds`).

`Entity.materialize_stored` is the main statement. Single-precision fields are left out of it.
-/

namespace SqlPlan

/-- The cell of a property is that of its column, if the row has the column. -/
theorem Row.findCell_of_find? {row : Row} {column property : Bytes} {v : Value}
    (h : row.find? column = some v) : row.findCell column property = some v := by
  rw [findCell, h]
  rfl

/-! ## What a field stores -/

namespace FieldType

/-- Is a content too large for the cell it is stored in? -/
def exceeds : (t : FieldType) → t.Carrier → Bool
  | .uint64, n => Int64.maxValue.toInt < n.toNat
  | _, _ => false

/-- A field never stores NULL. -/
theorem isNull_store (t : FieldType) (x : t.Carrier) : (t.store x).isNull = false := by
  cases t <;> rfl

/-- Reading an integer of a range gives the integer back when it is in the range. -/
theorem asIntegerIn_integer {lo hi : Int} {n : Int64} (hlo : lo ≤ n.toInt) (hhi : n.toInt ≤ hi) :
    (Value.integer n).asIntegerIn lo hi = .ok n :=
  if_neg (by omega)

/-- The upper half of the unsigned integers becomes negative. -/
theorem toInt_toInt64 (n : UInt64) :
    n.toInt64.toInt =
      if Int64.maxValue.toInt < n.toNat then (n.toNat : Int) - UInt64.size else n.toNat := by
  change n.toBitVec.toInt = _
  rw [BitVec.toInt_eq_toNat_cond, UInt64.toNat_toBitVec, Int64.toInt_maxValue]
  simp only [UInt64.size]
  split <;> split <;> omega

/-- **A field reads what it has stored**, unless it was too large. -/
theorem read_store {t : FieldType} {x : t.Carrier} (ht : t ≠ .single) (hx : t.exceeds x = false) :
    t.read (t.store x) = .ok x := by
  -- integers are widened to 64 bits when they are stored, and must be found in their range again
  cases t with
  | boolean => cases x <;> rfl
  | int32 =>
    have hn : (Value.integer x.toInt64).asIntegerIn Int32.minValue.toInt Int32.maxValue.toInt =
        .ok x.toInt64 := by
      apply asIntegerIn_integer <;> rw [Int32.toInt_toInt64]
      · exact Int32.minValue_le_toInt x
      · exact Int32.toInt_le x
    rw [read, store, hn]
    exact congrArg Except.ok (Int32.toInt32_toInt64 x)
  | uint32 =>
    have hlt := x.toNat_lt
    have hn : (Value.integer x.toUInt64.toInt64).asIntegerIn 0 (UInt32.size - 1) =
        .ok x.toUInt64.toInt64 := by
      have hvalue : x.toUInt64.toInt64.toInt = x.toNat := by
        rw [toInt_toInt64, UInt32.toNat_toUInt64, Int64.toInt_maxValue, if_neg (by omega)]
      apply asIntegerIn_integer <;> rw [hvalue]
      · exact Int.natCast_nonneg _
      · simp only [UInt32.size]
        omega
    rw [read, store, hn]
    exact congrArg Except.ok
      ((congrArg UInt64.toUInt32 (UInt64.toUInt64_toInt64 _)).trans (UInt32.toUInt32_toUInt64 x))
  | int64 => rfl
  | uint64 =>
    have hsmall : ¬Int64.maxValue.toInt < x.toNat := of_decide_eq_false hx
    have hn : (Value.integer x.toInt64).asIntegerIn 0 Int64.maxValue.toInt = .ok x.toInt64 := by
      have hvalue : x.toInt64.toInt = x.toNat := by rw [toInt_toInt64, if_neg hsmall]
      apply asIntegerIn_integer <;> rw [hvalue]
      · exact Int.natCast_nonneg _
      · exact Int.not_lt.1 hsmall
    rw [read, store, hn]
    exact congrArg Except.ok (UInt64.toUInt64_toInt64 x)
  | single => exact absurd rfl ht
  | double => rfl
  | text => rfl

/-- What was too large is refused. -/
theorem read_store_of_exceeds {t : FieldType} {x : t.Carrier} (hx : t.exceeds x = true) :
    t.read (t.store x) = .error (.outOfRange (t.store x)) := by
  cases t with
  | uint64 =>
    have hlarge : Int64.maxValue.toInt < x.toNat := of_decide_eq_true hx
    have hlt := x.toNat_lt
    have hn : (Value.integer x.toInt64).asIntegerIn 0 Int64.maxValue.toInt =
        .error (.outOfRange (.integer x.toInt64)) := by
      refine if_pos (Or.inl ?_)
      rw [toInt_toInt64, if_pos hlarge]
      simp only [UInt64.size]
      omega
    rw [read, store, hn]
    rfl
  | boolean | int32 | uint32 | int64 | single | double | text => cases hx

end FieldType

/-! ## Cells and rows -/

/-- Does the record hold a content too large for the cell of the property? -/
def Record.exceeds (r : Record) (p : Property) : Bool := p.field.any fun f => f.type.exceeds (r f)

namespace Entity

variable {e : Entity} {r acc : Record} {row : Row} {p : Property} {f : Field}

/-- The row of a record: the cell of each property, by its column. -/
def stored (e : Entity) (r : Record) : Except TranslationError Row :=
  .ofList <$> e.cells r e.properties

/-- Properties that are bound have cells, in their columns. -/
theorem exists_cells {ps : List Property} (hbound : ∀ p ∈ ps, ∃ f, p.field = some f) :
    ∃ cs, e.cells r ps = .ok cs ∧ cs.map Prod.fst = ps.map (·.column) ∧
      ∀ p ∈ ps, ∀ f, p.field = some f → (p.column, r.store f) ∈ cs := by
  induction ps with
  | nil => exact ⟨[], rfl, rfl, by simp⟩
  | cons p ps ih =>
    obtain ⟨f, hf⟩ := hbound p List.mem_cons_self
    obtain ⟨cs, hcs, hcolumns, hmem⟩ := ih fun q hq => hbound q (List.mem_cons_of_mem _ hq)
    have hb : e.binding p = .ok f := by rw [binding, hf]
    refine ⟨(p.column, r.store f) :: cs, ?_, by simp [hcolumns], ?_⟩
    · rw [cells] at hcs ⊢
      rw [List.mapM_cons, hcs, hb]
      rfl
    · intro q hq g hg
      rcases List.mem_cons.1 hq with rfl | hq
      · obtain rfl := Option.some.inj (hf.symm.trans hg)
        exact List.mem_cons_self
      · exact List.mem_cons_of_mem _ (hmem q hq g hg)

/-- The row of a record has the value of each field in the column of its property. -/
theorem exists_stored (hbound : ∀ p ∈ e.properties, ∃ f, p.field = some f)
    (hcolumns : (e.properties.map (·.column)).Nodup) :
    ∃ row, e.stored r = .ok row ∧
      ∀ p ∈ e.properties, ∀ f, p.field = some f → row.find? p.column = some (r.store f) := by
  obtain ⟨cs, hcs, hkeys, hmem⟩ := exists_cells (e := e) (r := r) hbound
  refine ⟨.ofList cs, by rw [stored, hcs]; rfl, ?_⟩
  intro p hp f hf
  exact ByteMap.find?_ofList (hkeys ▸ hcolumns) (hmem p hp f hf)

/-! ## Reading the row again -/

/-- The cell of a property that is in its column is read into its field. -/
theorem readProperty_eq (hf : p.field = some f) (hcell : row.find? p.column = some (r.store f)) :
    e.readProperty row acc p =
      (acc.read f (r.store f)).mapError fun reason => .mapping ⟨p.name, p.column, reason⟩ := by
  have hnull : (r.store f).isNull = false := f.type.isNull_store (r f)
  have hb : e.binding p = .ok f := by rw [binding, hf]
  rw [readProperty, Row.findCell_of_find? hcell]
  simp only [hnull, Bool.false_eq_true, if_false, readCell, hb]
  rfl

/-- A field that is not too large gets the content that was stored. -/
theorem readProperty_stored (hf : p.field = some f) (ht : f.type ≠ .single)
    (hx : r.exceeds p = false) (hcell : row.find? p.column = some (r.store f)) :
    e.readProperty row acc p = .ok (acc.set f (r f)) := by
  have hread : f.type.read (r.store f) = .ok (r f) :=
    FieldType.read_store ht (by simpa [Record.exceeds, hf] using hx)
  rw [readProperty_eq hf hcell, Record.read, hread]
  rfl

/-- A field that is too large is refused, by the names of its property. -/
theorem readProperty_exceeding (hf : p.field = some f) (hx : r.exceeds p = true)
    (hcell : row.find? p.column = some (r.store f)) :
    e.readProperty row acc p =
      .error (.mapping ⟨p.name, p.column, .outOfRange (r.store f)⟩) := by
  have hread : f.type.read (r.store f) = .error (.outOfRange (r.store f)) :=
    FieldType.read_store_of_exceeds (by simpa [Record.exceeds, hf] using hx)
  rw [readProperty_eq hf hcell, Record.read, hread]
  rfl

/-- Properties that are read one after the other: their fields have the contents that were stored,
and all others are as they were. -/
theorem foldlM_readProperty (ps : List Property) (acc : Record)
    (hps : ∀ p ∈ ps, r.exceeds p = false ∧ ∃ f, p.field = some f ∧ f.type ≠ .single ∧
      row.find? p.column = some (r.store f)) :
    ∃ r', ps.foldlM (e.readProperty row) acc = .ok r' ∧
      (∀ p ∈ ps, ∀ f, p.field = some f → r' f = r f) ∧
      ∀ f, (∀ p ∈ ps, p.field ≠ some f) → r' f = acc f := by
  induction ps generalizing acc with
  | nil => exact ⟨acc, rfl, by simp, fun _ _ => rfl⟩
  | cons p ps ih =>
    obtain ⟨hx, f, hf, ht, hcell⟩ := hps p List.mem_cons_self
    obtain ⟨r', hr', hread, hkept⟩ := ih (acc.set f (r f)) fun q hq =>
      hps q (List.mem_cons_of_mem _ hq)
    refine ⟨r', ?_, ?_, ?_⟩
    · rw [List.foldlM_cons, readProperty_stored hf ht hx hcell]
      exact hr'
    · intro q hq g hg
      by_cases hlater : ∃ q' ∈ ps, q'.field = some g
      · obtain ⟨q', hq', hg'⟩ := hlater
        exact hread q' hq' g hg'
      · -- no later property has the field, so this one does
        rcases List.mem_cons.1 hq with rfl | hq
        · obtain rfl := Option.some.inj (hf.symm.trans hg)
          rw [hkept f fun q' hq' hg' => hlater ⟨q', hq', hg'⟩, Record.set_self]
        · exact absurd ⟨q, hq, hg⟩ hlater
    · intro g hg
      have hne : g ≠ f := by
        rintro rfl
        exact hg p List.mem_cons_self hf
      rw [hkept g fun q hq => hg q (List.mem_cons_of_mem _ hq), Record.set_of_ne _ _ hne]

/-- **A record that is stored is read back, or refused aloud.** The row of a record gives every
bound field the content it had and leaves all others at their initial values, unless a content was
too large; then the first such property in the order of declaration is named in a mapping error.
Whatever is read, no bound field has another content than it had. -/
theorem materialize_stored (e : Entity) (r : Record)
    (hbound : ∀ p ∈ e.properties, ∃ f, p.field = some f ∧ f.type ≠ .single)
    (hcolumns : (e.properties.map (·.column)).Nodup) :
    ∃ row, e.stored r = .ok row ∧
      (match e.properties.find? r.exceeds with
        | none => ∃ r', e.materialize row = .ok r' ∧
            (∀ p ∈ e.properties, ∀ f, p.field = some f → r' f = r f) ∧
            ∀ f, (∀ p ∈ e.properties, p.field ≠ some f) → r' f = f.type.initial
        | some p => ∃ f, p.field = some f ∧ e.materialize row =
            .error (.mapping ⟨p.name, p.column, .outOfRange (r.store f)⟩)) ∧
      ∀ r', e.materialize row = .ok r' →
        ∀ p ∈ e.properties, ∀ f, p.field = some f → r' f = r f := by
  obtain ⟨row, hrow, hcells⟩ := exists_stored (r := r)
    (fun p hp => (hbound p hp).imp fun _ hf => hf.1) hcolumns
  have hcell : ∀ p ∈ e.properties, ∃ f, p.field = some f ∧ f.type ≠ .single ∧
      row.find? p.column = some (r.store f) := by
    intro p hp
    obtain ⟨f, hf, ht⟩ := hbound p hp
    exact ⟨f, hf, ht, hcells p hp f hf⟩
  refine ⟨row, hrow, ?_⟩
  cases hfirst : e.properties.find? r.exceeds with
  | none =>
    have hx : ∀ p ∈ e.properties, r.exceeds p = false := by
      simpa [List.find?_eq_none] using hfirst
    obtain ⟨r', hr', hread, hkept⟩ := foldlM_readProperty (e := e) e.properties .initial
      fun p hp => ⟨hx p hp, hcell p hp⟩
    refine ⟨⟨r', hr', hread, hkept⟩, ?_⟩
    intro r'' hr''
    obtain rfl := Except.ok.inj (hr'.symm.trans hr'')
    exact hread
  | some p =>
    obtain ⟨hx, before, after, hps, hbefore⟩ := List.find?_eq_some_iff_append.1 hfirst
    obtain ⟨f, hf, -, hp⟩ := hcell p (by simp [hps])
    -- what stands before the first such property is read, and that one ends the reading
    obtain ⟨r', hr', -, -⟩ := foldlM_readProperty (e := e) before .initial
      fun q hq => ⟨by simpa using hbefore q hq, hcell q (by simp [hps, hq])⟩
    have herror : e.materialize row =
        .error (.mapping ⟨p.name, p.column, .outOfRange (r.store f)⟩) := by
      rw [materialize, hps, List.foldlM_append, hr']
      exact congrArg (· >>= fun acc => after.foldlM (e.readProperty row) acc)
        (readProperty_exceeding hf hx hp)
    refine ⟨⟨f, hf, herror⟩, ?_⟩
    intro r'' hr''
    rw [herror] at hr''
    cases hr''

/-- Visitors with a name, a mark, and two counts. -/
def visitors : Entity where
  table := ascii "visitors"
  naming := default
  properties :=
    [{ name := ascii "Name", column := ascii "name", isKey := true, field := some ⟨.text, 0⟩ },
      { name := ascii "Known", column := ascii "known", field := some ⟨.boolean, 0⟩ },
      { name := ascii "Steps", column := ascii "steps", field := some ⟨.uint64, 0⟩ },
      { name := ascii "Visits", column := ascii "visits", field := some ⟨.uint64, 1⟩ }]

/-- A visitor with the largest count that can be read back, and another count. -/
def visitor (visits : UInt64) : Record :=
  ((Record.initial.set ⟨.text, 0⟩ (ascii "Ann")).set ⟨.uint64, 0⟩ 9223372036854775807).set
    ⟨.uint64, 1⟩ visits

/-- A small count is read back, and one that is too large is refused by its names. -/
theorem materialize_stored_visitor :
    (∀ p ∈ visitors.properties, ∃ f, p.field = some f ∧ f.type ≠ .single) ∧
    (visitors.properties.map (·.column)).Nodup ∧
    (∃ row r', visitors.stored (visitor 3) = .ok row ∧ visitors.materialize row = .ok r' ∧
      r' ⟨.text, 0⟩ = ascii "Ann" ∧ r' ⟨.uint64, 0⟩ = 9223372036854775807 ∧ r' ⟨.uint64, 1⟩ = 3) ∧
    ∃ row, visitors.stored (visitor 18446744073709551615) = .ok row ∧ visitors.materialize row =
      .error (.mapping ⟨ascii "Visits", ascii "visits", .outOfRange (.integer (-1))⟩) := by
  have hbound : ∀ p ∈ visitors.properties, ∃ f, p.field = some f ∧ f.type ≠ .single := by
    simp [visitors]
  have hcolumns : (visitors.properties.map (·.column)).Nodup := by decide
  refine ⟨hbound, hcolumns, ?_, ?_⟩
  · obtain ⟨row, hrow, hread, -⟩ := materialize_stored visitors (visitor 3) hbound hcolumns
    have hfirst : visitors.properties.find? (visitor 3).exceeds = none := by decide
    rw [hfirst] at hread
    obtain ⟨r', hr', hsame, -⟩ := hread
    have hfields : ∀ f ∈ visitors.properties.filterMap (·.field), r' f = visitor 3 f := by
      intro f hf
      obtain ⟨p, hp, hpf⟩ := List.mem_filterMap.1 hf
      exact hsame p hp f hpf
    exact ⟨row, r', hrow, hr', hfields _ (by decide), hfields _ (by decide), hfields _ (by decide)⟩
  · obtain ⟨row, hrow, hread, -⟩ :=
      materialize_stored visitors (visitor 18446744073709551615) hbound hcolumns
    have hfirst : visitors.properties.find? (visitor 18446744073709551615).exceeds =
        some { name := ascii "Visits", column := ascii "visits", field := some ⟨.uint64, 1⟩ } := by
      decide
    rw [hfirst] at hread
    obtain ⟨f, hf, herror⟩ := hread
    obtain rfl := Option.some.inj hf
    exact ⟨row, hrow, herror⟩

end Entity

end SqlPlan
