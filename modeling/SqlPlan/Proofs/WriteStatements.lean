import SqlPlan.Entity.Write
import SqlPlan.Proofs.Settled

/-!
# What is written where

A record is written by statements that list columns in one place and values in another. For an
entity whose properties are all bound, `Entity.write_statements` says which properties an insertion
and an update write, in what order, and that columns, placeholders and parameters go together.

An insertion leaves out the properties that the database generates and that have their initial
value; they can stand anywhere in the declaration. An update leaves out the first property of the
primary key and puts it at the end.

Each statement is that of a fragment, in which values are bound at the place of their column
(`insertion`, `updating`). Where table and columns have plain names, the placeholders are the ones
that a scanner finds, and each one's value comes to stand where its column asks for it.
-/

namespace SqlPlan

open Fragment Placeholder

/-! ## Lists of fragments -/

namespace Fragment

/-- The text of joined fragments is their texts, joined. -/
theorem sql_joined (sep : Fragment) (fs : List Fragment) :
    (joined sep fs).sql = Bytes.joined sep.sql (fs.map sql) :=
  Bytes.map_flatten_intersperse sql_nil sql_append sep fs

theorem inlined_joined (sep : Fragment) (fs : List Fragment) :
    (joined sep fs).inlined = Bytes.joined sep.inlined (fs.map inlined) :=
  Bytes.map_flatten_intersperse rfl (fun _ _ => List.flatMap_append) sep fs

/-- A separator that binds nothing leaves the parameters of the fragments in their order. -/
theorem params_joined {sep : Fragment} (hsep : sep.params = []) (fs : List Fragment) :
    (joined sep fs).params = fs.flatMap params := by
  rw [joined, Bytes.map_flatten_intersperse params_nil params_append, hsep, List.flatMap_def]
  cases fs with
  | nil => rfl
  | cons f fs =>
    rw [List.map_cons, Bytes.flatten_intersperse_cons, List.flatten_cons, List.flatMap_def]
    simp only [List.nil_append, List.map_id']

@[simp] theorem sql_word (s : String) : (word s).sql = ascii s := sql_ofText _

@[simp] theorem params_word (s : String) : (word s).params = [] := rfl

@[simp] theorem inlined_append (f g : Fragment) : (f ++ g).inlined = f.inlined ++ g.inlined :=
  List.flatMap_append

@[simp] theorem inlined_ofText (s : Bytes) : (ofText s).inlined = s := List.append_nil s

@[simp] theorem inlined_word (s : String) : (word s).inlined = ascii s := List.append_nil _

@[simp] theorem inlined_bound (v : Value) : inlined [.bound v] = v.literal := List.append_nil _

@[simp] theorem sql_bound (v : Value) : sql [.bound v] = ascii "?" := rfl

@[simp] theorem params_bound (v : Value) : params [.bound v] = [v] := rfl

end Fragment

/-! ## Properties of a record -/

namespace Record

/-- The value that a record has for a property; it has none for one that is not bound. -/
def value (r : Record) (p : Property) : Value := (p.field.map r.store).getD .null

/-- The value for a bound property is what its field stores. -/
theorem value_eq {r : Record} {p : Property} {f : Field} (hf : p.field = some f) :
    r.value p = r.store f := by
  rw [value, hf]
  rfl

/-- Is the property left to the database, which generates it, for this record? -/
def leavesOut (r : Record) (p : Property) : Bool := p.isGenerated && p.field.any r.isInitial

/-- The column of a property and the value for it. -/
def cell (r : Record) (p : Property) : Entity.ColumnValue := (p.column, r.value p)

/-- The column of a property with its value bound to it. -/
def assigned (r : Record) (p : Property) : Fragment :=
  ofText (p.column ++ ascii " = ") ++ [.bound (r.value p)]

theorem sql_assigned (r : Record) (p : Property) :
    (r.assigned p).sql = p.column ++ ascii " = ?" := by
  rw [assigned, sql_append, sql_ofText, List.append_assoc]
  rfl

theorem params_assigned (r : Record) (p : Property) : (r.assigned p).params = [r.value p] := rfl

theorem inlined_assigned (r : Record) (p : Property) :
    (r.assigned p).inlined = p.column ++ ascii " = " ++ (r.value p).literal := by
  rw [assigned, inlined_append, inlined_ofText, inlined_bound]

/-- Where the column has a plain name, the placeholder of the assignment is one that a scanner
finds. -/
theorem settled_assigned (r : Record) {p : Property} (hp : Inert p.column) :
    (r.assigned p).Settled :=
  (settled_ofText (hp.append (by decide))).append (settled_bound _)

end Record

namespace Entity

variable {e : Entity} {r : Record} {p k : Property} {ps before after : List Property}

/-- The properties that an insertion writes: all in the order of declaration but for those that are
generated and have their initial value. -/
def inserted (e : Entity) (r : Record) : List Property := e.properties.filter (!r.leavesOut ·)

theorem binding_eq_ok {f : Field} : e.binding p = .ok f ↔ p.field = some f := by
  rw [binding]
  cases p.field <;> simp

/-- Bound properties have cells, each with its own column and value. -/
theorem cells_eq (hbound : ∀ p ∈ ps, ∃ f, p.field = some f) :
    e.cells r ps = .ok (ps.map r.cell) := by
  refine Except.mapM_eq_map fun p hp => ?_
  obtain ⟨f, hf⟩ := hbound p hp
  rw [binding_eq_ok.2 hf, Record.cell, Record.value_eq hf]
  rfl

/-- Leaving cells out of a list is filtering the properties they are made of. -/
theorem filterMap_cells (ps : List Property) :
    (ps.map fun p => if r.leavesOut p then none else some (r.cell p)).filterMap id =
      (ps.filter (!r.leavesOut ·)).map r.cell := by
  induction ps with
  | nil => rfl
  | cons p ps ih =>
    rw [List.map_cons, List.filterMap_cons, List.filter_cons, ih]
    cases r.leavesOut p <;> rfl

/-- An insertion writes the cells of the properties it does not leave out. -/
theorem writtenCells_eq (hbound : ∀ p ∈ e.properties, ∃ f, p.field = some f) :
    e.writtenCells r = .ok ((e.inserted r).map r.cell) := by
  rw [inserted, ← filterMap_cells]
  refine Except.bind_pure_eq_ok.2 ⟨_, Except.mapM_eq_map fun p hp => ?_, rfl⟩
  obtain ⟨f, hf⟩ := hbound p hp
  simp only [binding_eq_ok.2 hf, Record.cell, Record.value_eq hf, Record.leavesOut, hf,
    Option.any_some]
  rfl

/-- Only the first property of the key is taken out. -/
theorem withoutKey_eq (hbefore : ∀ p ∈ before, p.isKey = false) (hk : k.isKey = true) :
    withoutKey (before ++ k :: after) = before ++ after := by
  induction before with
  | nil => simp [withoutKey, hk]
  | cons p before ih =>
    obtain ⟨hp, hbefore⟩ := List.forall_mem_cons.1 hbefore
    simp [withoutKey, hp, ih hbefore]

/-- The key of an entity is the first property of the primary key. -/
theorem key?_eq_some :
    e.key? = some k ↔ k.isKey = true ∧ ∃ before after, e.properties = before ++ k :: after ∧
      ∀ p ∈ before, p.isKey = false := by
  simp [key?, List.find?_eq_some_iff_append]

/-! ## The statements as fragments -/

/-- The insertion of properties, with the values bound in the order of the columns. -/
def insertion (e : Entity) (verb : WriteVerb) (r : Record) (ps : List Property) : Fragment :=
  ofText (verb.text ++ e.table ++ ascii " (" ++ Bytes.joined (ascii ", ") (ps.map (·.column)) ++
    ascii ") VALUES (") ++
  joined (word ", ") (ps.map fun p => [.bound (r.value p)]) ++ word ")"

/-- The update of properties in the row that a key constrains. -/
def updating (e : Entity) (r : Record) (ps : List Property) (k : Property) : Fragment :=
  ofText (ascii "UPDATE " ++ e.table ++ ascii " SET ") ++
    joined (word ", ") (ps.map r.assigned) ++ word " WHERE " ++ r.assigned k

/-- The columns are listed, and a placeholder for each. -/
theorem sql_insertion (verb : WriteVerb) :
    (e.insertion verb r ps).sql = verb.text ++ e.table ++ ascii " (" ++
      Bytes.joined (ascii ", ") (ps.map (·.column)) ++ ascii ") VALUES (" ++
      Bytes.joined (ascii ", ") (ps.map fun _ => ascii "?") ++ ascii ")" := by
  simp only [insertion, sql_append, sql_ofText, sql_word, sql_joined, List.map_map,
    Function.comp_def, sql_bound]

/-- The values are bound in the order of their columns. -/
theorem params_insertion (verb : WriteVerb) : (e.insertion verb r ps).params = ps.map r.value := by
  simp only [insertion, params_append, params_ofText, params_word, params_joined (params_word _),
    List.flatMap_map, params_bound, List.nil_append, List.append_nil]
  exact List.map_eq_flatMap.symm

/-- With the values put in, each stands at the position of its column. -/
theorem inlined_insertion (verb : WriteVerb) :
    (e.insertion verb r ps).inlined = verb.text ++ e.table ++ ascii " (" ++
      Bytes.joined (ascii ", ") (ps.map (·.column)) ++ ascii ") VALUES (" ++
      Bytes.joined (ascii ", ") (ps.map fun p => (r.value p).literal) ++ ascii ")" := by
  simp only [insertion, inlined_append, inlined_ofText, inlined_word, inlined_joined, List.map_map,
    Function.comp_def, inlined_bound]

/-- Plain names of table and columns have no quote and no question mark, so a scanner finds the
placeholders and no others. -/
theorem settled_insertion (verb : WriteVerb) (htable : Inert e.table)
    (hcolumns : ∀ p ∈ ps, Inert p.column) : (e.insertion verb r ps).Settled := by
  have hlist : Inert (Bytes.joined (ascii ", ") (ps.map (·.column))) :=
    Bytes.holds_joined (P := Inert) (List.forall_mem_nil _) Inert.append (by decide)
      (List.forall_mem_map.2 hcolumns)
  have hverb : Inert verb.text := by cases verb <;> decide
  have hhead := (((hverb.append htable).append (t := ascii " (") (by decide)).append hlist).append
    (t := ascii ") VALUES (") (by decide)
  refine ((settled_ofText hhead).append ?_).append (by decide)
  exact composes_settled.joined (by decide) (List.forall_mem_map.2 fun p _ => settled_bound _)

/-- Each property is assigned, and the key constrained, by a placeholder next to the column. -/
theorem sql_updating :
    (e.updating r ps k).sql = ascii "UPDATE " ++ e.table ++ ascii " SET " ++
      Bytes.joined (ascii ", ") (ps.map fun p => p.column ++ ascii " = ?") ++ ascii " WHERE " ++
      (k.column ++ ascii " = ?") := by
  simp only [updating, sql_append, sql_ofText, sql_word, sql_joined, List.map_map,
    Function.comp_def, Record.sql_assigned]

/-- The value of the key comes after those of the properties. -/
theorem params_updating :
    (e.updating r ps k).params = ps.map r.value ++ [r.value k] := by
  simp only [updating, params_append, params_ofText, params_word, params_joined (params_word _),
    List.flatMap_map, Record.params_assigned, List.nil_append, List.append_nil,
    ← List.map_eq_flatMap]

theorem inlined_updating :
    (e.updating r ps k).inlined = ascii "UPDATE " ++ e.table ++ ascii " SET " ++
      Bytes.joined (ascii ", ") (ps.map fun p => p.column ++ ascii " = " ++ (r.value p).literal) ++
      ascii " WHERE " ++ (k.column ++ ascii " = " ++ (r.value k).literal) := by
  simp only [updating, inlined_append, inlined_ofText, inlined_word, inlined_joined, List.map_map,
    Function.comp_def, Record.inlined_assigned]

/-- As with insertions, plain names leave a scanner the placeholders and no others. -/
theorem settled_updating (htable : Inert e.table) (hcolumns : ∀ p ∈ ps, Inert p.column)
    (hk : Inert k.column) : (e.updating r ps k).Settled := by
  have hhead : Inert (ascii "UPDATE " ++ e.table ++ ascii " SET ") :=
    (Inert.append (by decide) htable).append (by decide)
  have hset : (joined (word ", ") (ps.map r.assigned)).Settled :=
    composes_settled.joined (by decide)
      (List.forall_mem_map.2 fun p hp => r.settled_assigned (hcolumns p hp))
  exact (((settled_ofText hhead).append hset).append (by decide)).append (r.settled_assigned hk)

/-! ## What the statements are -/

/-- **The statement writes a record**: it lists the columns of the properties that are inserted and
as many placeholders, with their values as parameters in the same order. -/
structure Inserts (e : Entity) (verb : WriteVerb) (r : Record) (st : Statement) : Prop where
  /-- the parameters are the values of the inserted properties -/
  params : st.params = (e.inserted r).map r.value
  /-- the default values are asked for exactly when no property is inserted -/
  defaults : st.sql = verb.text ++ e.table ++ ascii " DEFAULT VALUES" ↔ e.inserted r = []
  /-- else the columns are listed, and a placeholder for each of them -/
  columns : e.inserted r ≠ [] →
    st.sql = verb.text ++ e.table ++ ascii " (" ++
      Bytes.joined (ascii ", ") ((e.inserted r).map (·.column)) ++ ascii ") VALUES (" ++
      Bytes.joined (ascii ", ") ((e.inserted r).map fun _ => ascii "?") ++ ascii ")"
  /-- where names are plain, a scanner finds as many placeholders as there are properties, and puts
  the value of each column where its placeholder is -/
  paired : Inert e.table → (∀ p ∈ e.properties, Inert p.column) →
    count st.sql = (e.inserted r).length ∧ (e.inserted r ≠ [] →
      st.expanded = verb.text ++ e.table ++ ascii " (" ++
        Bytes.joined (ascii ", ") ((e.inserted r).map (·.column)) ++ ascii ") VALUES (" ++
        Bytes.joined (ascii ", ") ((e.inserted r).map fun p => (r.value p).literal) ++ ascii ")")

/-- **The statement updates a record**: it assigns each property to a placeholder and constrains the
column of the key, with the values as parameters in the same order. -/
structure Updates (e : Entity) (r : Record) (ps : List Property) (k : Property) (st : Statement) :
    Prop where
  /-- the properties are assigned in their order, and the key is constrained -/
  sql : st.sql = ascii "UPDATE " ++ e.table ++ ascii " SET " ++
    Bytes.joined (ascii ", ") (ps.map fun p => p.column ++ ascii " = ?") ++ ascii " WHERE " ++
    (k.column ++ ascii " = ?")
  /-- the parameters are the values of the properties and that of the key -/
  params : st.params = ps.map r.value ++ [r.value k]
  /-- where names are plain, a scanner finds a placeholder for each property and one for the key,
  and puts the value of each column next to it -/
  paired : Inert e.table → (∀ p ∈ e.properties, Inert p.column) →
    count st.sql = ps.length + 1 ∧
    st.expanded = ascii "UPDATE " ++ e.table ++ ascii " SET " ++
      Bytes.joined (ascii ", ") (ps.map fun p => p.column ++ ascii " = " ++ (r.value p).literal) ++
      ascii " WHERE " ++ (k.column ++ ascii " = " ++ (r.value k).literal)

section

variable (hbound : ∀ p ∈ e.properties, ∃ f, p.field = some f)
include hbound

/-- A record of which nothing is inserted is written as default values, any other one by its
columns. -/
theorem write_eq (htable : e.table ≠ []) (verb : WriteVerb) :
    e.write verb r = .ok (if (e.inserted r).isEmpty then
      ⟨verb.text ++ e.table ++ ascii " DEFAULT VALUES", []⟩
      else (e.insertion verb r (e.inserted r)).statement) := by
  have hnamed : e.table.isEmpty = false := by simpa [List.isEmpty_iff] using htable
  have hwrite : e.write verb r = if (e.inserted r).isEmpty then
      .ok ⟨verb.text ++ e.table ++ ascii " DEFAULT VALUES", []⟩
      else .ok ⟨verb.text ++ e.table ++ ascii " (" ++
        Bytes.joined (ascii ", ") (((e.inserted r).map r.cell).map (·.1)) ++
        ascii ") VALUES (" ++ Bytes.joined (ascii ", ")
          (placeholders ((e.inserted r).map r.cell).length) ++ ascii ")",
        ((e.inserted r).map r.cell).map (·.2)⟩ := by
    rw [write, writtenCells_eq hbound, hnamed, ← List.isEmpty_map]
    rfl
  rw [hwrite, apply_ite Except.ok]
  refine congrArg (ite _ _) (congrArg Except.ok ?_)
  rw [Fragment.statement, sql_insertion, params_insertion, List.map_map, List.map_map,
    placeholders, List.length_map, ← List.map_const']
  rfl

/-- Any record of an entity with a table and bound properties can be inserted, and the statement
does what an insertion is for. -/
theorem exists_inserts (htable : e.table ≠ []) (verb : WriteVerb) :
    ∃ st, e.write verb r = .ok st ∧ e.Inserts verb r st := by
  refine ⟨_, write_eq hbound htable verb, ?_⟩
  cases hempty : (e.inserted r).isEmpty with
  | true =>
    have hnil : e.inserted r = [] := List.isEmpty_iff.1 hempty
    rw [if_pos rfl]
    constructor
    case params => rw [hnil, List.map_nil]
    case defaults => exact ⟨fun _ => hnil, fun _ => rfl⟩
    case columns => exact fun hne => absurd hnil hne
    case paired =>
      intro htable _
      have hverb : Inert verb.text := by cases verb <;> decide
      refine ⟨?_, fun hne => absurd hnil hne⟩
      rw [hnil]
      exact ((hverb.append htable).append (by decide)).count_eq
  | false =>
    have hne : e.inserted r ≠ [] := by simpa [List.isEmpty_iff] using hempty
    rw [if_neg Bool.false_ne_true]
    constructor
    case params => exact params_insertion (e := e) verb
    case defaults =>
      refine ⟨fun h => ?_, fun hnil => absurd hnil hne⟩
      -- behind the table the one statement has a parenthesis and the other a letter
      rw [Fragment.statement, sql_insertion] at h
      simp only [List.append_assoc, List.append_cancel_left_eq] at h
      exact absurd (congrArg (·[1]?) h) (by simp [ascii])
    case columns => exact fun _ => sql_insertion verb
    case paired =>
      intro htable hcolumns
      have hsettled : (e.insertion verb r (e.inserted r)).Settled :=
        settled_insertion verb htable fun p hp => hcolumns p (List.mem_of_mem_filter hp)
      obtain ⟨hcount, hexpanded⟩ := hsettled.expand_eq_inlined
      refine ⟨?_, fun _ => hexpanded.trans (inlined_insertion verb)⟩
      rw [Fragment.statement, hcount, params_insertion, List.length_map]

/-- The update of an entity with a key and other properties. -/
theorem update_eq (hproperties : e.properties = before ++ k :: after)
    (hbefore : ∀ p ∈ before, p.isKey = false) (hk : k.isKey = true)
    (hothers : before ++ after ≠ []) :
    e.update r = .ok (e.updating r (before ++ after) k).statement := by
  have hkey : e.key? = some k := key?_eq_some.2 ⟨hk, before, after, hproperties, hbefore⟩
  -- the key is taken out once, from its place in the middle
  have hcells : e.cells r (withoutKey e.properties) = .ok ((before ++ after).map r.cell) := by
    rw [hproperties, withoutKey_eq hbefore hk]
    refine cells_eq fun p hp => hbound p ?_
    rw [hproperties]
    simp only [List.mem_append, List.mem_cons] at hp ⊢
    tauto
  obtain ⟨f, hf⟩ := hbound k (by simp [hproperties])
  have hsome : ((before ++ after).map r.cell).isEmpty = false := by
    rw [List.isEmpty_map]
    simpa [List.isEmpty_iff] using hothers
  have hupdate : e.update r = .ok ⟨ascii "UPDATE " ++ e.table ++ ascii " SET " ++
      Bytes.joined (ascii ", ") (((before ++ after).map r.cell).map assignment) ++
      ascii " WHERE " ++ assignment (k.column, r.store f),
      ((before ++ after).map r.cell).map (·.2) ++ [r.store f]⟩ := by
    rw [update, hkey]
    simp only [hcells, binding_eq_ok.2 hf]
    change (if _ then _ else _) = _
    rw [hsome]
    rfl
  rw [hupdate, Fragment.statement, sql_updating, params_updating, List.map_map, List.map_map,
    Record.value_eq hf]
  rfl

/-- It can be updated where there is a key and something besides. -/
theorem exists_updates (hproperties : e.properties = before ++ k :: after)
    (hbefore : ∀ p ∈ before, p.isKey = false) (hk : k.isKey = true)
    (hothers : before ++ after ≠ []) :
    ∃ st, e.update r = .ok st ∧ e.Updates r (before ++ after) k st := by
  refine ⟨_, update_eq hbound hproperties hbefore hk hothers, sql_updating,
    params_updating (e := e), ?_⟩
  intro htable hcolumns
  rw [hproperties] at hcolumns
  have hsettled : (e.updating r (before ++ after) k).Settled := by
    refine settled_updating htable (fun p hp => hcolumns p ?_) (hcolumns k (by simp))
    simp only [List.mem_append, List.mem_cons] at hp ⊢
    tauto
  obtain ⟨hcount, hexpanded⟩ := hsettled.expand_eq_inlined
  refine ⟨?_, hexpanded.trans inlined_updating⟩
  rw [Fragment.statement, hcount, params_updating, List.length_append, List.length_map]
  rfl

end

/-- Without a key, or with nothing but a key, there is no update. -/
theorem update_error (h : ¬((∃ p ∈ e.properties, p.isKey = true) ∧ 2 ≤ e.properties.length)) :
    e.update r = .error
      (if e.key?.isNone then .updateWithoutKey e.table else .updateWithoutColumns e.table) := by
  cases hkey : e.key? with
  | none =>
    rw [update, hkey]
    rfl
  | some k =>
    obtain ⟨hk, before, after, hproperties, -⟩ := key?_eq_some.1 hkey
    have halone : e.properties = [k] := by
      have hlength : ¬2 ≤ e.properties.length := fun hlength =>
        h ⟨⟨k, by simp [hproperties], hk⟩, hlength⟩
      rw [hproperties] at hlength ⊢
      simp only [List.length_append, List.length_cons] at hlength
      have hbefore : before = [] := List.eq_nil_of_length_eq_zero (by omega)
      have hafter : after = [] := List.eq_nil_of_length_eq_zero (by omega)
      rw [hbefore, hafter]
      rfl
    rw [update, hkey, halone, withoutKey, hk]
    rfl

/-- **Write statements pair columns with values**, for every entity with a table whose properties
are bound, and every record. Insertions list the properties that are not left out, with their values
in their order. With a key and something besides it, an update assigns all other properties in the
order of declaration and constrains the first property of the key; else it is an error. -/
theorem write_statements (htable : e.table ≠ [])
    (hbound : ∀ p ∈ e.properties, ∃ f, p.field = some f) (r : Record) :
    (∃ st, e.insert r = .ok st ∧ e.Inserts .insert r st) ∧
    (∃ st, e.upsert r = .ok st ∧ e.Inserts .upsert r st) ∧
    ((∃ p ∈ e.properties, p.isKey = true) ∧ 2 ≤ e.properties.length →
      ∃ before k after st, e.properties = before ++ k :: after ∧
        (∀ p ∈ before, p.isKey = false) ∧ k.isKey = true ∧
        e.update r = .ok st ∧ e.Updates r (before ++ after) k st) ∧
    (¬((∃ p ∈ e.properties, p.isKey = true) ∧ 2 ≤ e.properties.length) →
      e.update r = .error
        (if e.key?.isNone then .updateWithoutKey e.table else .updateWithoutColumns e.table)) := by
  refine ⟨exists_inserts hbound htable .insert, exists_inserts hbound htable .upsert, ?_,
    update_error⟩
  rintro ⟨⟨p, hp, hpkey⟩, hlength⟩
  obtain ⟨k, hkey⟩ : ∃ k, e.key? = some k :=
    Option.isSome_iff_exists.1 (List.find?_isSome.2 ⟨p, hp, hpkey⟩)
  obtain ⟨hk, before, after, hproperties, hbefore⟩ := key?_eq_some.1 hkey
  -- of two properties one at least is not the key
  have hothers : before ++ after ≠ [] := by
    intro hnil
    have hlengths := congrArg List.length hnil
    rw [hproperties] at hlength
    simp only [List.length_append, List.length_cons, List.length_nil] at hlength hlengths
    omega
  obtain ⟨st, hst, hupdates⟩ := exists_updates hbound hproperties hbefore hk hothers
  exact ⟨before, k, after, st, hproperties, hbefore, hk, hst, hupdates⟩

/-- Notes with a number from the database, a rank that the database can give, and a text. -/
def notes : Entity where
  table := ascii "notes"
  naming := default
  properties :=
    [{ name := ascii "Text", column := ascii "text", field := some ⟨.text, 0⟩ },
      { name := ascii "Id", column := ascii "id", isKey := true, isGenerated := true,
        field := some ⟨.int64, 0⟩ },
      { name := ascii "Rank", column := ascii "rank", isGenerated := true,
        field := some ⟨.int64, 1⟩ }]

/-- A note without a number. -/
def note : Record := (Record.initial.set ⟨.text, 0⟩ (ascii "Hi")).set ⟨.int64, 1⟩ 7

/-- The number in the middle is left out of the insertion and comes last in the update. -/
theorem write_statements_note :
    (∃ st, notes.insert note = .ok st ∧ notes.Inserts .insert note st ∧
      st = ⟨ascii "INSERT INTO notes (text, rank) VALUES (?, ?)",
        [.text (ascii "Hi"), .integer 7]⟩) ∧
    ∃ before k after st, notes.properties = before ++ k :: after ∧ notes.update note = .ok st ∧
      notes.Updates note (before ++ after) k st ∧
      st = ⟨ascii "UPDATE notes SET text = ?, rank = ? WHERE id = ?",
        [.text (ascii "Hi"), .integer 7, .integer 0]⟩ := by
  have hbound : ∀ p ∈ notes.properties, ∃ f, p.field = some f := by simp [notes]
  obtain ⟨⟨st, hst, hinserts⟩, -, hupdate, -⟩ := write_statements (by decide) hbound note
  obtain ⟨before, k, after, st', hproperties, -, -, hst', hupdates⟩ :=
    hupdate ⟨by decide, by decide⟩
  exact ⟨⟨st, hst, hinserts, Except.ok.inj (hst.symm.trans rfl)⟩, before, k, after, st',
    hproperties, hst', hupdates, Except.ok.inj (hst'.symm.trans rfl)⟩

end Entity

end SqlPlan
