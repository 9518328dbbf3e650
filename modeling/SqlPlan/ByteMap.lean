import SqlPlan.Bytes

/-!
# Finite maps keyed by byte strings

A map is a list of entries whose keys rise strictly in byte order, so equal maps are equal as
values and a walk over a map meets its keys in byte order. `find?_insert` is the law of the map:
an insertion changes what is found at its own key and nowhere else.
-/

namespace SqlPlan

/-- The entries of a map rise strictly by key. -/
abbrev Ascending {α : Type} (entries : List (Bytes × α)) : Prop :=
  entries.Pairwise fun p q => p.1 < q.1

/-- A finite map from byte strings. -/
structure ByteMap (α : Type) where
  /-- the entries, in byte order of their keys -/
  entries : List (Bytes × α) := []
  /-- no key comes twice, and the order is that of the keys -/
  ascending : Ascending entries := by exact List.Pairwise.nil
deriving DecidableEq

namespace ByteMap

variable {α : Type}

instance : Inhabited (ByteMap α) := ⟨{}⟩

/-- The map without entries. -/
def empty : ByteMap α := {}

/-- Puts an entry at its place in an ascending list, over an entry with the same key. -/
def place (k : Bytes) (v : α) : List (Bytes × α) → List (Bytes × α)
  | [] => [(k, v)]
  | p :: ps =>
    if k < p.1 then (k, v) :: p :: ps
    else if k = p.1 then (k, v) :: ps
    else p :: place k v ps

/-- Every key after a placement is the new one or was there. -/
theorem mem_place {k : Bytes} {v : α} {ps : List (Bytes × α)} {q : Bytes × α}
    (h : q ∈ place k v ps) : q = (k, v) ∨ q ∈ ps := by
  induction ps with
  | nil => exact Or.inl (by simpa [place] using h)
  | cons p ps ih =>
    simp only [place] at h
    split at h
    · simpa using h
    · split at h
      · rcases List.mem_cons.1 h with h | h
        · exact Or.inl h
        · exact Or.inr (List.mem_cons_of_mem _ h)
      · rcases List.mem_cons.1 h with h | h
        · exact Or.inr (h ▸ List.mem_cons_self ..)
        · exact (ih h).imp id (List.mem_cons_of_mem _)

/-- Placing an entry keeps a list ascending. -/
theorem ascending_place (k : Bytes) (v : α) {ps : List (Bytes × α)} (h : Ascending ps) :
    Ascending (place k v ps) := by
  induction ps with
  | nil => exact List.pairwise_singleton _ _
  | cons p ps ih =>
    obtain ⟨hp, hps⟩ := List.pairwise_cons.1 h
    simp only [place]
    split
    · rename_i hk
      refine List.pairwise_cons.2 ⟨fun q hq => ?_, h⟩
      rcases List.mem_cons.1 hq with rfl | hq
      · exact hk
      · exact List.lt_trans hk (hp q hq)
    · split
      · rename_i hk
        exact List.pairwise_cons.2 ⟨fun q hq => hk ▸ hp q hq, hps⟩
      · rename_i hlt hne
        refine List.pairwise_cons.2 ⟨fun q hq => ?_, ih hps⟩
        rcases mem_place hq with rfl | hq
        · exact Std.lt_of_le_of_ne (Std.not_lt.1 hlt) (Ne.symm hne)
        · exact hp q hq

/-- The map with `v` at `k`, whatever was there before. -/
def insert (m : ByteMap α) (k : Bytes) (v : α) : ByteMap α :=
  ⟨place k v m.entries, ascending_place k v m.ascending⟩

/-- The value at a key. -/
def find? (m : ByteMap α) (k : Bytes) : Option α :=
  (m.entries.find? fun p => p.1 == k).map (·.2)

/-- Is the key in the map? -/
def contains (m : ByteMap α) (k : Bytes) : Bool := (m.find? k).isSome

/-- The map of a list of entries; of entries with one key, the last counts. -/
def ofList (ps : List (Bytes × α)) : ByteMap α := ps.foldl (fun m p => m.insert p.1 p.2) empty

/-- Adds one to the count at a key, from zero where the key is new. -/
def increment (m : ByteMap Nat) (k : Bytes) : ByteMap Nat := m.insert k ((m.find? k).getD 0 + 1)

@[simp] theorem find?_empty (k : Bytes) : (empty : ByteMap α).find? k = none := rfl

/-- What is found after an insertion: the new value at its key, the old ones elsewhere. -/
theorem find?_insert (m : ByteMap α) (k : Bytes) (v : α) (k' : Bytes) :
    (m.insert k v).find? k' = if k' = k then some v else m.find? k' := by
  obtain ⟨ps, h⟩ := m
  simp only [insert, find?]
  induction ps with
  | nil => by_cases hk : k' = k <;> simp [place, hk, Ne.symm]
  | cons p ps ih =>
    have ih := ih (List.pairwise_cons.1 h).2
    -- the search meets the new entry where it was placed, or passes it by
    by_cases hk : k' = k
    · subst hk
      simp only [place]
      split
      · simp
      · split
        · simp
        · rename_i hne
          simpa [List.find?_cons, Ne.symm hne] using ih
    · have hkk : (k == k') = false := by simpa using fun e => hk e.symm
      rw [if_neg hk] at ih ⊢
      simp only [place]
      split
      · simp [List.find?_cons, hkk]
      · split
        · rename_i he
          simp [hkk, ← he]
        · simp only [List.find?_cons]
          split
          · rfl
          · exact ih

end ByteMap

end SqlPlan
