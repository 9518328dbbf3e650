import Mathlib.Data.List.Induction
import Mathlib.Data.List.Nodup
import Mathlib.Data.List.Sort
import SqlPlan.ByteMap

/-!
# What is found in a map

A map is known by what is found in it: `find?_eq_some_iff` reads its entries off, and two maps with
the same findings are equal (`eq_of_find?`). In the map of a list of entries the last entry with a
key is found (`find?_ofList_eq_some_iff`), so insertions at different keys can change places.
-/

namespace SqlPlan.ByteMap

variable {α : Type} {m m' : ByteMap α} {ps : List (Bytes × α)} {k k' : Bytes} {v v' : α}

/-! ## Entries -/

/-- What is found at a key is the entry with that key. -/
theorem find?_eq_some_iff : m.find? k = some v ↔ (k, v) ∈ m.entries := by
  rw [find?, Option.map_eq_some_iff]
  constructor
  · rintro ⟨⟨k', v'⟩, hfound, rfl⟩
    obtain rfl : k' = k := by simpa using List.find?_some hfound
    exact List.mem_of_find?_eq_some hfound
  · intro hmem
    obtain ⟨⟨k', v'⟩, hfound⟩ : ∃ p, m.entries.find? (fun p => p.1 == k) = some p := by
      rw [← Option.isSome_iff_exists, List.find?_isSome]
      exact ⟨(k, v), hmem, beq_self_eq_true k⟩
    obtain rfl : k' = k := by simpa using List.find?_some hfound
    -- keys rise strictly, so no other entry has this one
    have hkeys : (m.entries.map Prod.fst).Nodup :=
      List.pairwise_map.2 (m.ascending.imp fun h => Std.ne_of_lt h)
    have hsame : (k', v') = (k', v) :=
      List.inj_on_of_nodup_map hkeys (List.mem_of_find?_eq_some hfound) hmem rfl
    exact ⟨(k', v'), hfound, congrArg Prod.snd hsame⟩

/-- Of the entries with a key of one kind, the first is the one with the least key. -/
theorem find?_entries_eq_some_iff {P : Bytes → Bool} :
    m.entries.find? (fun entry => P entry.1) = some (k, v) ↔
      m.find? k = some v ∧ P k = true ∧
        ∀ k' v', m.find? k' = some v' → P k' = true → k ≤ k' := by
  -- this direction is enough: the least key of the kind is unique
  have forward : ∀ {k v}, m.entries.find? (fun entry => P entry.1) = some (k, v) →
      m.find? k = some v ∧ P k = true ∧
        ∀ k' v', m.find? k' = some v' → P k' = true → k ≤ k' := by
    intro k v hfound
    obtain ⟨hP, before, after, hentries, hbefore⟩ := List.find?_eq_some_iff_append.1 hfound
    refine ⟨find?_eq_some_iff.2 (List.mem_of_find?_eq_some hfound), hP, fun k' v' hmem hP' => ?_⟩
    have hmem : (k', v') ∈ before ++ (k, v) :: after := hentries ▸ find?_eq_some_iff.1 hmem
    rcases List.mem_append.1 hmem with hmem | hmem
    · exact absurd hP' (by simpa using hbefore _ hmem)
    rcases List.mem_cons.1 hmem with hmem | hmem
    · obtain ⟨rfl, rfl⟩ := Prod.mk.inj hmem
      exact Std.le_refl _
    · -- the keys after the first one are greater
      have hascending := (List.pairwise_append.1 (hentries ▸ m.ascending)).2.1
      exact Std.le_of_lt ((List.pairwise_cons.1 hascending).1 _ hmem)
  refine ⟨forward, ?_⟩
  rintro ⟨hmem, hP, hfirst⟩
  obtain ⟨⟨k', v'⟩, hfound⟩ :
      ∃ entry, m.entries.find? (fun entry => P entry.1) = some entry := by
    rw [← Option.isSome_iff_exists, List.find?_isSome]
    exact ⟨(k, v), find?_eq_some_iff.1 hmem, hP⟩
  obtain ⟨hmem', hP', hfirst'⟩ := forward hfound
  obtain rfl : k' = k := Std.le_antisymm (hfirst' k v hmem hP) (hfirst k' v' hmem' hP')
  rw [hfound, Option.some.inj (hmem'.symm.trans hmem)]

/-- No entry has a key of some kind when no key that is in the map is of it. -/
theorem find?_entries_eq_none_iff {P : Bytes → Bool} :
    m.entries.find? (fun entry => P entry.1) = none ↔
      ∀ k v, m.find? k = some v → P k = false := by
  rw [List.find?_eq_none]
  constructor
  · intro h k v hcell
    exact Bool.eq_false_iff.2 (h (k, v) (find?_eq_some_iff.1 hcell))
  · intro h entry hentry
    exact Bool.eq_false_iff.1 (h entry.1 entry.2 (find?_eq_some_iff.2 hentry))

/-! ## Maps with the same findings -/

/-- Maps in which the same is found at every key are equal. -/
theorem eq_of_find? (h : ∀ k, m.find? k = m'.find? k) : m = m' := by
  obtain ⟨ps, hps⟩ := m
  obtain ⟨ps', hps'⟩ := m'
  have hentries : ∀ p, p ∈ ps ↔ p ∈ ps' := fun p => by
    rw [← find?_eq_some_iff (m := ⟨ps, hps⟩) (k := p.1), h, find?_eq_some_iff]
  have hirrefl : Std.Irrefl fun p q : Bytes × α => p.1 < q.1 := ⟨fun p => List.lt_irrefl p.1⟩
  have hantisymm : Std.Antisymm fun p q : Bytes × α => p.1 < q.1 :=
    ⟨fun p q hpq hqp => absurd (List.lt_trans hpq hqp) (List.lt_irrefl p.1)⟩
  simp only [List.Pairwise.eq_of_mem_iff hps hps' hentries]

/-- Insertions at different keys can change places. -/
theorem insert_comm (h : k ≠ k') : (m.insert k v).insert k' v' = (m.insert k' v').insert k v := by
  refine eq_of_find? fun q => ?_
  simp only [find?_insert]
  by_cases hq : q = k
  · rw [if_neg (hq ▸ h), if_pos hq, if_pos hq]
  · rw [if_neg hq, if_neg hq]

/-! ## Maps from lists -/

theorem ofList_concat (ps : List (Bytes × α)) (p : Bytes × α) :
    ofList (ps ++ [p]) = (ofList ps).insert p.1 p.2 := by
  rw [ofList, List.foldl_append]
  rfl

/-- What is found in the map of a list is found by a search from the end of the list. -/
theorem find?_ofList_eq (ps : List (Bytes × α)) (k : Bytes) :
    (ofList ps).find? k = (ps.reverse.find? fun p => p.1 == k).map (·.2) := by
  induction ps using List.reverseRecOn with
  | nil => rfl
  | append_singleton ps p ih =>
    rw [ofList_concat, find?_insert, ih, List.reverse_append, List.reverse_singleton,
      List.singleton_append, List.find?_cons]
    by_cases hk : k = p.1
    · rw [if_pos hk, hk, beq_self_eq_true]
      rfl
    · rw [if_neg hk, beq_eq_false_iff_ne.2 (Ne.symm hk)]

/-- **Of the entries with one key, the last counts.** -/
theorem find?_ofList_eq_some_iff :
    (ofList ps).find? k = some v ↔
      ∃ before after, ps = before ++ (k, v) :: after ∧ ∀ p ∈ after, p.1 ≠ k := by
  rw [find?_ofList_eq, Option.map_eq_some_iff]
  constructor
  · rintro ⟨⟨k', v'⟩, hfound, rfl⟩
    obtain ⟨hk, after, before, hps, hafter⟩ := List.find?_eq_some_iff_append.1 hfound
    obtain rfl : k' = k := by simpa using hk
    refine ⟨before.reverse, after.reverse, ?_, fun p hp => ?_⟩
    · rw [← List.reverse_reverse ps, hps]
      simp
    · simpa using hafter p (List.mem_reverse.1 hp)
  · rintro ⟨before, after, rfl, hafter⟩
    refine ⟨(k, v), List.find?_eq_some_iff_append.2 ⟨beq_self_eq_true k, after.reverse,
      before.reverse, by simp, fun p hp => ?_⟩, rfl⟩
    simpa using hafter p (List.mem_reverse.1 hp)

/-- The keys of the map of a list are those of its entries. -/
theorem contains_ofList : (ofList ps).contains k = true ↔ ∃ p ∈ ps, p.1 = k := by
  rw [contains, find?_ofList_eq, Option.isSome_map, List.find?_isSome]
  simp only [List.mem_reverse, beq_iff_eq]

/-- In a map of entries with different keys every entry is found. -/
theorem find?_ofList (hkeys : (ps.map Prod.fst).Nodup) (hmem : (k, v) ∈ ps) :
    (ofList ps).find? k = some v := by
  obtain ⟨before, after, rfl⟩ := List.append_of_mem hmem
  rw [List.map_append, List.map_cons, List.nodup_append] at hkeys
  have hnew : k ∉ after.map Prod.fst := (List.nodup_cons.1 hkeys.2.1).1
  refine find?_ofList_eq_some_iff.2 ⟨before, after, rfl, fun p hp hk => ?_⟩
  exact hnew (hk ▸ List.mem_map_of_mem hp)

end SqlPlan.ByteMap
