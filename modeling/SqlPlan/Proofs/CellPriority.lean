import SqlPlan.Proofs.StoredRows

/-!
# Which cell of a row is found

A row without the column of a property is searched for another spelling: a key with the letters of
the column or the property, or a key that becomes the property in capitals style. The first kind is
meant to come before the second, whatever the keys (`Row.Ranks`). The search makes one pass for both
kinds together and takes the first key in byte order, so a key of the second kind that comes early
is found instead: the row is `Overtaken`.

`Row.ranks_iff` is the main statement: the search keeps to the ranks exactly when the row is not
overtaken. `Row.ranks_overtaken` has a row that is.
-/

namespace SqlPlan

/-- Does a key have the letters of the column or of the property? -/
def hasLetters (column property key : Bytes) : Bool :=
  key.sameLetters column || key.sameLetters property

/-- The two kinds of keys that spell a column or a property. -/
theorem spells_eq (column property key : Bytes) :
    spells column property key = (hasLetters column property key || pascalCase key == property) :=
  rfl

/-- A key with the letters of the column or the property spells it. -/
theorem spells_of_hasLetters {column property key : Bytes}
    (h : hasLetters column property key = true) : spells column property key = true := by
  rw [spells_eq, h, Bool.true_or]

/-- So does a key that is the property in capitals style. -/
theorem spells_of_pascalCase {column property key : Bytes} (h : pascalCase key = property) :
    spells column property key = true := by
  rw [spells_eq, beq_iff_eq.2 h, Bool.or_true]

namespace Row

variable {row : Row} {column property k : Bytes} {v : Value}

/-- The entry whose cell is found: that of the column, else the first in byte order whose key spells
the column or the property differently. -/
def found? (row : Row) (column property : Bytes) : Option (Bytes × Value) :=
  match row.find? column with
  | some v => some (column, v)
  | none => row.entries.find? fun cell => spells column property cell.1

/-- The cell of a property is the value of the entry that is found. -/
theorem findCell_eq_found? (row : Row) (column property : Bytes) :
    row.findCell column property = (row.found? column property).map (·.2) := by
  rw [findCell, found?]
  cases row.find? column <;> rfl

/-- Where the row has the column, its entry is found without a search. -/
theorem found?_of_find? (h : row.find? column = some v) :
    row.found? column property = some (column, v) := by
  rw [found?, h]

/-- Where it does not, one pass over the entries looks for both kinds of keys. -/
theorem found?_of_missing (h : row.find? column = none) :
    row.found? column property =
      row.entries.find? fun cell => spells column property cell.1 := by
  rw [found?, h]

/-- Without the column, the entry that is found is the first whose key spells the column or the
property. -/
theorem found?_eq_some_iff (h : row.find? column = none) :
    row.found? column property = some (k, v) ↔
      row.find? k = some v ∧ spells column property k = true ∧
        ∀ k' v', row.find? k' = some v' → spells column property k' = true → k ≤ k' := by
  rw [found?_of_missing h]
  exact ByteMap.find?_entries_eq_some_iff (P := spells column property)

/-- Nothing is found exactly where no key spells the column or the property. -/
theorem found?_eq_none_iff :
    row.found? column property = none ↔
      ∀ k v, row.find? k = some v → spells column property k = false := by
  cases h : row.find? column with
  | none =>
    rw [found?_of_missing h]
    exact ByteMap.find?_entries_eq_none_iff (P := spells column property)
  | some v =>
    rw [found?_of_find? h]
    refine iff_of_false (Option.some_ne_none _) fun hnone => ?_
    have hself : spells column property column = true :=
      spells_of_hasLetters (by rw [hasLetters, Bytes.sameLetters, beq_self_eq_true, Bool.true_or])
    exact Bool.noConfusion (hself.symm.trans (hnone column v h))

/-- What the **ranks** of the keys say is found: the cell of the column; without it the first cell,
in byte order, whose key has the letters of the column or the property; without one of those the
first whose key is the property in capitals style; and else none. -/
inductive Ranks (row : Row) (column property : Bytes) : Option (Bytes × Value) → Prop where
  /-- the column -/
  | column {v : Value} : row.find? column = some v → Ranks row column property (some (column, v))
  /-- the letters of the column or the property -/
  | letters {k : Bytes} {v : Value} : row.find? column = none → row.find? k = some v →
      hasLetters column property k = true →
      (∀ k' v', row.find? k' = some v' → hasLetters column property k' = true → k ≤ k') →
      Ranks row column property (some (k, v))
  /-- the property in capitals style -/
  | capitals {k : Bytes} {v : Value} : row.find? column = none →
      (∀ k' v', row.find? k' = some v' → hasLetters column property k' = false) →
      row.find? k = some v → pascalCase k = property →
      (∀ k' v', row.find? k' = some v' → pascalCase k' = property → k ≤ k') →
      Ranks row column property (some (k, v))
  /-- no key of any kind -/
  | nothing : (∀ k v, row.find? k = some v → spells column property k = false) →
      Ranks row column property none

/-- A row without the column is **overtaken**: some key has the letters of the column or the
property, and before every such key there is one that is the property in capitals style. -/
structure Overtaken (row : Row) (column property : Bytes) : Prop where
  /-- the column is missing -/
  missing : row.find? column = none
  /-- a key has the letters -/
  lettered : ∃ k v, row.find? k = some v ∧ hasLetters column property k = true
  /-- another comes before all that have them -/
  early : ∃ k v, row.find? k = some v ∧ pascalCase k = property ∧
    ∀ k' v', row.find? k' = some v' → hasLetters column property k' = true → k < k'

/-- Where a key with the letters is found, the ranks are kept and the row is not overtaken. -/
theorem ranks_of_hasLetters (hmissing : row.find? column = none)
    (hfound : row.found? column property = some (k, v))
    (hletters : hasLetters column property k = true) :
    row.Ranks column property (some (k, v)) ∧ ¬row.Overtaken column property := by
  obtain ⟨hcell, -, hfirst⟩ := (found?_eq_some_iff hmissing).1 hfound
  constructor
  · exact .letters hmissing hcell hletters fun k' v' hcell' hletters' =>
      hfirst k' v' hcell' (spells_of_hasLetters hletters')
  · rintro ⟨-, -, k', v', hcell', hcapitals, hearly⟩
    have hlt : k' < k := hearly k v hcell hletters
    have hle : k ≤ k' := hfirst k' v' hcell' (spells_of_pascalCase hcapitals)
    exact Std.not_lt.2 hle hlt

/-- Where a key without the letters is found, the ranks are kept exactly when no key has them, and
the row is overtaken exactly when one does. -/
theorem ranks_of_pascalCase (hmissing : row.find? column = none)
    (hfound : row.found? column property = some (k, v))
    (hletters : hasLetters column property k = false) :
    (row.Ranks column property (some (k, v)) ↔
      ∀ k' v', row.find? k' = some v' → hasLetters column property k' = false) ∧
    (row.Overtaken column property ↔
      ¬∀ k' v', row.find? k' = some v' → hasLetters column property k' = false) := by
  obtain ⟨hcell, hspells, hfirst⟩ := (found?_eq_some_iff hmissing).1 hfound
  have hcapitals : pascalCase k = property := by
    rw [spells_eq, hletters, Bool.false_or] at hspells
    exact beq_iff_eq.1 hspells
  -- the key found is the first of all kinds; only one with the letters could have a higher rank,
  -- and it would come later
  refine ⟨⟨fun hranks => ?_, fun hnone => ?_⟩, ⟨fun hover hnone => ?_, fun hsome => ?_⟩⟩
  · cases hranks with
    | column hcolumn => exact absurd (hcolumn.symm.trans hmissing) (Option.some_ne_none v)
    | letters _ _ hletters' _ => exact Bool.noConfusion (hletters'.symm.trans hletters)
    | capitals _ hnone _ _ _ => exact hnone
  · exact .capitals hmissing hnone hcell hcapitals fun k' v' hcell' hcapitals' =>
      hfirst k' v' hcell' (spells_of_pascalCase hcapitals')
  · obtain ⟨k', v', hcell', hletters'⟩ := hover.lettered
    exact Bool.noConfusion (hletters'.symm.trans (hnone k' v' hcell'))
  · simp only [not_forall, Bool.not_eq_false] at hsome
    obtain ⟨k', v', hcell', hletters'⟩ := hsome
    refine ⟨hmissing, ⟨k', v', hcell', hletters'⟩, k, v, hcell, hcapitals, ?_⟩
    intro l w hl hlletters
    refine Std.lt_of_le_of_ne (hfirst l w hl (spells_of_hasLetters hlletters)) ?_
    rintro rfl
    exact Bool.noConfusion (hlletters.symm.trans hletters)

/-- What is found is what the ranks say exactly when the row is not overtaken. -/
theorem ranks_found?_iff :
    row.Ranks column property (row.found? column property) ↔ ¬row.Overtaken column property := by
  cases hmissing : row.find? column with
  | some v =>
    rw [found?_of_find? hmissing]
    refine iff_of_true (.column hmissing) fun hover => ?_
    exact Option.some_ne_none v (hmissing.symm.trans hover.missing)
  | none =>
    cases hfound : row.found? column property with
    | none =>
      have hnone := found?_eq_none_iff.1 hfound
      refine iff_of_true (.nothing hnone) fun hover => ?_
      obtain ⟨k, v, hcell, hletters⟩ := hover.lettered
      exact Bool.noConfusion ((spells_of_hasLetters hletters).symm.trans (hnone k v hcell))
    | some entry =>
      -- the kind of the key that was found decides on which side the row is
      cases hletters : hasLetters column property entry.1 with
      | true =>
        obtain ⟨hranks, hnot⟩ := ranks_of_hasLetters hmissing hfound hletters
        exact iff_of_true hranks hnot
      | false =>
        obtain ⟨hranks, hover⟩ := ranks_of_pascalCase hmissing hfound hletters
        rw [hover, Classical.not_not]
        exact hranks

/-- **When the search keeps to the ranks.** A cell is found exactly when some key spells the column
or the property, and that of the column is found whenever there is one. Which cell is found is what
the ranks say exactly when the row is not overtaken. -/
theorem ranks_iff (row : Row) (column property : Bytes) :
    row.findCell column property = (row.found? column property).map (·.2) ∧
    (row.findCell column property = none ↔
      ∀ k v, row.find? k = some v → spells column property k = false) ∧
    (∀ v, row.find? column = some v → row.findCell column property = some v) ∧
    (row.Ranks column property (row.found? column property) ↔
      ¬row.Overtaken column property) := by
  refine ⟨findCell_eq_found? row column property, ?nothing, fun v => findCell_of_find?,
    ranks_found?_iff⟩
  case nothing => rw [findCell_eq_found?, Option.map_eq_none_iff, found?_eq_none_iff]

/-- A row with a first name, and with a given name that is not spelled as the column is. -/
def twoNames : Row :=
  .ofList [(ascii "first_name", .text (ascii "Ann")), (ascii "given_Name", .text (ascii "Bob"))]

/-- **The ranks are not always kept**: the column of the property has another case in the row, and
a key that only becomes the property in capitals style is found, since it comes earlier. -/
theorem ranks_overtaken :
    twoNames.findCell (ascii "given_name") (ascii "FirstName") = some (.text (ascii "Ann")) ∧
    twoNames.Ranks (ascii "given_name") (ascii "FirstName")
      (some (ascii "given_Name", .text (ascii "Bob"))) ∧
    ¬∀ (row : Row) (column property : Bytes) (entry : Option (Bytes × Value)),
      row.Ranks column property entry → row.findCell column property = entry.map (·.2) := by
  have hann : twoNames.findCell (ascii "given_name") (ascii "FirstName") =
      some (.text (ascii "Ann")) := by decide
  have hleast : ∀ cell ∈ twoNames.entries,
      hasLetters (ascii "given_name") (ascii "FirstName") cell.1 = true →
      ascii "given_Name" ≤ cell.1 := by decide
  have hranks : twoNames.Ranks (ascii "given_name") (ascii "FirstName")
      (some (ascii "given_Name", .text (ascii "Bob"))) :=
    .letters (by decide) (by decide) (by decide) fun k v hcell =>
      hleast (k, v) (ByteMap.find?_eq_some_iff.1 hcell)
  refine ⟨hann, hranks, fun hclaim => ?_⟩
  have hbob := hann.symm.trans (hclaim _ _ _ _ hranks)
  exact absurd hbob (by decide)

end Row

end SqlPlan
