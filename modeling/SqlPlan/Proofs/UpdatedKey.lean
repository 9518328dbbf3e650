import Mathlib.Data.List.Nodup
import SqlPlan.Proofs.WriteStatements

/-!
# Which rows an update changes

An update assigns columns and constrains columns, each with the value that the record has for it.
It keeps to the row of the record (`Update.KeepsTo`) if it constrains every property of the primary
key and assigns the column of none of them.

A key is one property here: the first one that is flagged. `Entity.update_parts` says what the parts
of every update are, and that it keeps to the row of the record exactly when no further property is
flagged and none has the column of the key. Where several are flagged, `update_moves_seat` has an
update that changes rows of other seats, and their keys with them.
-/

namespace SqlPlan.Entity

variable {e : Entity} {r : Record} {p k : Property} {ps before after : List Property}

/-! ## The parts of an update -/

/-- An update by its parts: columns that are assigned and columns that are constrained, each with
its value. -/
structure Update where
  /-- the columns that get a value -/
  assigned : List ColumnValue
  /-- the columns that must have a value where the row is to change -/
  constrained : List ColumnValue

/-- The statement of an update, with the values of both parts bound in their order. -/
def Update.statement (u : Update) (table : Bytes) : Statement :=
  ⟨ascii "UPDATE " ++ table ++ ascii " SET " ++
      Bytes.joined (ascii ", ") (u.assigned.map assignment) ++
      ascii " WHERE " ++ Bytes.joined (ascii " AND ") (u.constrained.map assignment),
    u.assigned.map (·.2) ++ u.constrained.map (·.2)⟩

/-- **The update keeps to the row of the record**, as all properties of the key identify it. -/
structure Update.KeepsTo (u : Update) (e : Entity) (r : Record) : Prop where
  /-- each property of the key is constrained to the value of the record -/
  constrains : ∀ p ∈ e.properties, p.isKey = true → r.cell p ∈ u.constrained
  /-- the column of none of them is assigned -/
  spares : ∀ p ∈ e.properties, p.isKey = true → ∀ c ∈ u.assigned, c.1 ≠ p.column

/-- The update of some properties in the rows that have the key of the record. -/
def keyed (r : Record) (ps : List Property) (k : Property) : Update := ⟨ps.map r.cell, [r.cell k]⟩

theorem statement_keyed :
    (keyed r ps k).statement e.table = (e.updating r ps k).statement := by
  have hone : Bytes.joined (ascii " AND ") [assignment (r.cell k)] = k.column ++ ascii " = ?" :=
    List.append_nil _
  rw [Fragment.statement, sql_updating, params_updating, ← hone, Update.statement, keyed,
    List.map_map, List.map_map]
  rfl

/-! ## Updates that succeed -/

theorem mem_properties_iff (hproperties : e.properties = before ++ k :: after) :
    p ∈ e.properties ↔ p = k ∨ p ∈ before ++ after := by
  rw [hproperties, List.mem_append, List.mem_append, List.mem_cons]
  tauto

/-- An update that succeeds has found a key and other properties, all of them bound. -/
theorem bound_of_update {st : Statement} (h : e.update r = .ok st) :
    (∃ before k after, e.properties = before ++ k :: after ∧ (∀ p ∈ before, p.isKey = false) ∧
      k.isKey = true ∧ before ++ after ≠ []) ∧
    ∀ p ∈ e.properties, ∃ f, p.field = some f := by
  rw [update] at h
  cases hkey : e.key? with
  | none =>
    rw [hkey] at h
    cases h
  | some k =>
    obtain ⟨hk, before, after, hproperties, hbefore⟩ := key?_eq_some.1 hkey
    have hothers : withoutKey e.properties = before ++ after := by
      rw [hproperties, withoutKey_eq hbefore hk]
    simp only [hkey, hothers] at h
    obtain ⟨cs, hcs, h⟩ := Except.bind_eq_ok.1 h
    obtain ⟨hsome, h⟩ := Except.guard_eq_ok.1 h
    obtain ⟨f, hf, -⟩ := Except.bind_eq_ok.1 h
    have hcells := Except.mapM_eq_ok.1 hcs
    -- every cell was read off a field, so every property has one
    have hbound : ∀ p ∈ before ++ after, ∃ f, p.field = some f := by
      refine ((List.forall₂_and_left _ _).1 (hcells.imp fun p c hc => ⟨?_, hc⟩)).1
      obtain ⟨g, hg, -⟩ := Except.bind_eq_ok.1 hc
      exact ⟨g, binding_eq_ok.1 hg⟩
    refine ⟨⟨before, k, after, hproperties, hbefore, hk, ?_⟩, fun p hp => ?_⟩
    · intro hnil
      rw [hnil, List.forall₂_nil_left_iff] at hcells
      exact hsome (hcells ▸ rfl)
    · rcases (mem_properties_iff hproperties).1 hp with rfl | hp
      · exact ⟨f, binding_eq_ok.1 hf⟩
      · exact hbound p hp

/-- The update by a key keeps to the row of the record if and only if no other property belongs to
the key or has its column. -/
theorem keepsTo_keyed (hproperties : e.properties = before ++ k :: after) (hk : k.isKey = true) :
    (keyed r (before ++ after) k).KeepsTo e r ↔
      ∀ p ∈ before ++ after, p.isKey = false ∧ p.column ≠ k.column := by
  constructor
  · intro h p hp
    have hassigned : r.cell p ∈ (keyed r (before ++ after) k).assigned := List.mem_map_of_mem hp
    refine ⟨Bool.eq_false_iff.2 fun hkey => ?_, ?_⟩
    · exact h.spares p ((mem_properties_iff hproperties).2 (.inr hp)) hkey _ hassigned rfl
    · exact h.spares k ((mem_properties_iff hproperties).2 (.inl rfl)) hk _ hassigned
  · intro h
    -- where the condition holds, the key has one property, and that is the one constrained
    have honly : ∀ p ∈ e.properties, p.isKey = true → p = k := fun p hp hkey =>
      ((mem_properties_iff hproperties).1 hp).resolve_right fun hp =>
        Bool.false_ne_true ((h p hp).1.symm.trans hkey)
    constructor
    case constrains =>
      intro p hp hkey
      rw [honly p hp hkey]
      exact List.mem_singleton_self _
    case spares =>
      intro p hp hkey c hc
      obtain ⟨q, hq, rfl⟩ := List.mem_map.1 hc
      rw [honly p hp hkey]
      exact (h q hq).2

/-- **What an update assigns and constrains**, for every entity and every record: an update that
succeeds constrains the first property of the key to the value of the record and no other, and
assigns every other property in the order of declaration. It keeps to the row of the record exactly
when no other property belongs to the key or has its column. -/
theorem update_parts {e : Entity} {r : Record} {st : Statement} (h : e.update r = .ok st) :
    (∀ p ∈ e.properties, ∃ f, p.field = some f ∧ r.cell p = (p.column, r.store f)) ∧
    ∃ before k after, e.properties = before ++ k :: after ∧ (∀ p ∈ before, p.isKey = false) ∧
      k.isKey = true ∧ e.Updates r (before ++ after) k st ∧
      st = (keyed r (before ++ after) k).statement e.table ∧
      ((keyed r (before ++ after) k).KeepsTo e r ↔
        ∀ p ∈ before ++ after, p.isKey = false ∧ p.column ≠ k.column) := by
  obtain ⟨⟨before, k, after, hproperties, hbefore, hk, hothers⟩, hbound⟩ := bound_of_update h
  obtain ⟨st', hst', hupdates⟩ := exists_updates (r := r) hbound hproperties hbefore hk hothers
  obtain rfl : st = st' := Except.ok.inj (h.symm.trans hst')
  refine ⟨fun p hp => ?_, before, k, after, hproperties, hbefore, hk, hupdates, ?_,
    keepsTo_keyed hproperties hk⟩
  · obtain ⟨f, hf⟩ := hbound p hp
    exact ⟨f, hf, by rw [Record.cell, Record.value_eq hf]⟩
  · rw [update_eq hbound hproperties hbefore hk hothers] at h
    rw [statement_keyed, Except.ok.inj h]

/-- The number of a note is its whole key, so the update of a note keeps to it. -/
theorem update_parts_note :
    ∃ st, notes.update note = .ok st ∧
      ∃ before k after, notes.properties = before ++ k :: after ∧
        st = (keyed note (before ++ after) k).statement notes.table ∧
        (keyed note (before ++ after) k).KeepsTo notes note := by
  have hst : notes.update note = .ok ⟨ascii "UPDATE notes SET text = ?, rank = ? WHERE id = ?",
      [.text (ascii "Hi"), .integer 7, .integer 0]⟩ := rfl
  obtain ⟨-, before, k, after, hproperties, -, hk, -, hparts, hkeeps⟩ := update_parts hst
  refine ⟨_, hst, before, k, after, hproperties, hparts, hkeeps.2 fun p hp => ?_⟩
  have hnodup : (k :: (before ++ after)).Nodup :=
    List.nodup_middle.1 (hproperties ▸ (by decide : notes.properties.Nodup))
  have honly : ∀ k ∈ notes.properties, ∀ p ∈ notes.properties, k.isKey = true → p ≠ k →
      p.isKey = false ∧ p.column ≠ k.column := by decide
  refine honly k ((mem_properties_iff hproperties).2 (.inl rfl)) p
    ((mem_properties_iff hproperties).2 (.inr hp)) hk fun heq => ?_
  exact (List.nodup_cons.1 hnodup).1 (heq ▸ hp)

/-! ## Keys of several properties -/

/-- Seats, which a hall and a number in it identify. -/
def seats : Entity where
  table := ascii "seats"
  naming := default
  properties :=
    [{ name := ascii "Hall", column := ascii "hall", isKey := true, field := some ⟨.text, 0⟩ },
      { name := ascii "Seat", column := ascii "seat", isKey := true, field := some ⟨.int64, 0⟩ },
      { name := ascii "Guest", column := ascii "guest", field := some ⟨.text, 1⟩ }]

/-- A seat with its guest. -/
def seat : Record :=
  ((Record.initial.set ⟨.text, 0⟩ (ascii "A")).set ⟨.int64, 0⟩ 7).set ⟨.text, 1⟩ (ascii "Ann")

/-- The separator of several parts is in their text. -/
theorem mem_joined_of_two_le {sep : Bytes} {parts : List Bytes} (h : 2 ≤ parts.length) {b : UInt8}
    (hb : b ∈ sep) : b ∈ Bytes.joined sep parts := by
  match parts, h with
  | part :: next :: parts, _ =>
    rw [Bytes.joined, Bytes.flatten_intersperse_cons, List.flatMap_cons]
    simp only [List.mem_append, hb, true_or, or_true]

/-- **An update can move a seat**: every seat of the hall becomes this one, because the number of
the seat is assigned and not constrained. No reading of the statement constrains both parts of the
key. -/
theorem update_moves_seat :
    ∃ st, seats.update seat = .ok st ∧
      st = ⟨ascii "UPDATE seats SET seat = ?, guest = ? WHERE hall = ?",
        [.integer 7, .text (ascii "Ann"), .text (ascii "A")]⟩ ∧
      ¬∃ u : Update, st = u.statement seats.table ∧ u.KeepsTo seats seat := by
  refine ⟨_, rfl, rfl, ?_⟩
  rintro ⟨u, hu, hkeeps⟩
  have hhall := hkeeps.constrains _ (.head _) rfl
  have hseat := hkeeps.constrains _ (.tail _ (.head _)) rfl
  have hlength : 2 ≤ (u.constrained.map assignment).length := by
    rw [List.length_map]
    match hcs : u.constrained with
    | [] => exact absurd (hcs ▸ hhall) List.not_mem_nil
    | [c] =>
      rw [hcs, List.mem_singleton] at hhall hseat
      exact absurd (congrArg Prod.fst (hhall.trans hseat.symm)) (by decide)
    | _ :: _ :: _ => exact Nat.le_add_left 2 _
  -- two constraints would stand with the word AND between them
  have hmem : (78 : UInt8) ∈ (u.statement seats.table).sql :=
    List.mem_append_right _ (mem_joined_of_two_le hlength (by decide))
  rw [← hu] at hmem
  exact absurd hmem (by decide)

end SqlPlan.Entity
