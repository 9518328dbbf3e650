import SqlPlan.Bytes

/-!
# Texts cut at a separator

Cutting a text at a separator and joining the pieces with it undo each other: the pieces have no
separator, and joined they are the text (`joined_pieces`); pieces without the separator are found
again in the text that they are joined to (`pieces_joined`). For `split`, which finds no piece in
the empty text, the same holds of every list but the one of a single empty piece.
-/

namespace SqlPlan.Bytes

variable {sep b : UInt8} {s p q : Bytes} {ps : List Bytes}

theorem pieces_eq_splitOn (sep : UInt8) (s : Bytes) : pieces sep s = s.splitOn sep := by
  induction s with
  | nil => rw [pieces, List.splitOn_nil]
  | cons b s ih =>
    rw [pieces, List.splitOn_cons_eq_if_modifyHead, ih]
    by_cases hb : b = sep
    · rw [if_pos hb, if_pos (beq_iff_eq.2 hb)]
    · rw [if_neg hb, if_neg (by simpa using hb)]
      cases hs : s.splitOn sep with
      | nil => exact absurd hs (List.splitOn_ne_nil sep s)
      | cons p ps => rfl

/-! ## The pieces of a text -/

/-- **The pieces joined are the text.** -/
theorem joined_pieces (sep : UInt8) (s : Bytes) : joined [sep] (pieces sep s) = s := by
  rw [pieces_eq_splitOn]
  exact List.intercalate_splitOn sep

/-- A piece has no separator. -/
theorem not_mem_of_mem_pieces (h : p ∈ pieces sep s) : sep ∉ p := by
  induction s generalizing p with
  | nil =>
    rw [pieces, List.mem_singleton] at h
    exact h ▸ List.not_mem_nil
  | cons b s ih =>
    rw [pieces] at h
    by_cases hb : b = sep
    · rw [if_pos hb] at h
      rcases List.mem_cons.1 h with rfl | h
      · exact List.not_mem_nil
      · exact ih h
    · rw [if_neg hb] at h
      cases hs : pieces sep s with
      | nil => exact absurd hs (pieces_ne_nil sep s)
      | cons q qs =>
        rw [hs] at h ih
        rcases List.mem_cons.1 h with rfl | h
        · rw [List.mem_cons, not_or]
          exact ⟨Ne.symm hb, ih List.mem_cons_self⟩
        · exact ih (List.mem_cons_of_mem q h)

/-- What was split is joined again, be it empty or not. -/
theorem joined_split (sep : UInt8) (s : Bytes) : joined [sep] (split sep s) = s := by
  cases s with
  | nil => rfl
  | cons b s => exact joined_pieces sep (b :: s)

/-- No piece has the separator in it. -/
theorem not_mem_of_mem_split (h : p ∈ split sep s) : sep ∉ p := by
  cases s with
  | nil => exact absurd h List.not_mem_nil
  | cons b s => exact not_mem_of_mem_pieces h

/-! ## Joined pieces -/

section

variable {α : Type} {P : List α → Prop}

/-- What holds of every part holds of all of them together. -/
theorem holds_flatten (hnil : P []) (happend : ∀ {s t}, P s → P t → P (s ++ t))
    {parts : List (List α)} (hparts : ∀ s ∈ parts, P s) : P parts.flatten := by
  induction parts with
  | nil => exact hnil
  | cons s parts ih =>
    obtain ⟨hs, hparts⟩ := List.forall_mem_cons.1 hparts
    exact happend hs (ih hparts)

/-- What holds of the parts and of the separator holds of the parts with separators between them. -/
theorem holds_joined (hnil : P []) (happend : ∀ {s t}, P s → P t → P (s ++ t)) {sep : List α}
    {parts : List (List α)} (hsep : P sep) (hparts : ∀ s ∈ parts, P s) :
    P (parts.intersperse sep).flatten := by
  cases parts with
  | nil => exact hnil
  | cons s parts =>
    obtain ⟨hs, hparts⟩ := List.forall_mem_cons.1 hparts
    rw [flatten_intersperse_cons, List.flatMap_def]
    refine happend hs (holds_flatten hnil happend (List.forall_mem_map.2 ?_))
    intro t ht
    exact happend hsep (hparts t ht)

end

theorem joined_singleton (sep p : Bytes) : joined sep [p] = p := by
  rw [joined, List.intersperse_singleton, List.flatten_singleton]

theorem joined_pair (sep p q : Bytes) : joined sep [p, q] = p ++ (sep ++ q) := by
  rw [joined, flatten_intersperse_cons, List.flatMap_singleton]

theorem joined_cons_cons (sep p q : Bytes) (ps : List Bytes) :
    joined sep (p :: q :: ps) = p ++ (sep ++ joined sep (q :: ps)) := by
  rw [joined, joined, List.intersperse_cons_cons, List.flatten_cons, List.flatten_cons]

/-- What is joined to a piece is found again if it is at most one piece. -/
theorem toList_eq_of_joined_eq {o : Option Bytes} (hone : ps.length ≤ 1)
    (h : joined [sep] (p :: o.toList) = joined [sep] (p :: ps)) : o.toList = ps := by
  match o, ps, hone with
  | none, [], _ => rfl
  | some q, [], _ => simp [joined] at h
  | none, [r], _ => simp [joined] at h
  | some q, [r], _ =>
    rw [Option.toList_some, joined_pair, joined_pair] at h
    rw [Option.toList_some, List.append_cancel_left (List.append_cancel_left h)]

/-- The bytes of the pieces are bytes of the whole. -/
theorem mem_joined_of_mem {sep : Bytes} (hp : p ∈ ps) (hb : b ∈ p) : b ∈ joined sep ps := by
  cases ps with
  | nil => exact absurd hp List.not_mem_nil
  | cons q ps =>
    rw [joined, flatten_intersperse_cons, List.mem_append, List.mem_flatMap]
    rcases List.mem_cons.1 hp with rfl | hp
    · exact Or.inl hb
    · exact Or.inr ⟨p, hp, List.mem_append_right sep hb⟩

/-- A byte that is in no piece and not the separator is not in the joined pieces. -/
theorem not_mem_joined (hb : b ≠ sep) (h : ∀ p ∈ ps, b ∉ p) : b ∉ joined [sep] ps :=
  holds_joined (P := fun s => b ∉ s) List.not_mem_nil
    (fun hs ht hmem => (List.mem_append.1 hmem).elim hs ht) (by simpa using hb) h

/-- **Pieces without the separator are found again.** -/
theorem pieces_joined (h : ∀ p ∈ ps, sep ∉ p) (hne : ps ≠ []) :
    pieces sep (joined [sep] ps) = ps := by
  rw [pieces_eq_splitOn]
  exact List.splitOn_intercalate sep h hne

/-- Only no piece at all and one empty piece are joined to the empty text. -/
theorem joined_ne_nil (hne : ps ≠ []) (hne' : ps ≠ [[]]) : joined [sep] ps ≠ [] := by
  match ps with
  | [] => exact absurd rfl hne
  | [p] =>
    rw [joined_singleton]
    exact fun hp => hne' (by rw [hp])
  | p :: q :: ps => simp [joined, List.intersperse]

theorem split_of_ne_nil (h : s ≠ []) : split sep s = pieces sep s := by
  rw [split, if_neg (by simpa [List.isEmpty_iff] using h)]

/-- Pieces without the separator are found again. A single empty piece is not, for an empty text is
split into none. -/
theorem split_joined (h : ∀ p ∈ ps, sep ∉ p) (hne : ps ≠ [[]]) :
    split sep (joined [sep] ps) = ps := by
  by_cases hnil : ps = []
  · rw [hnil]
    rfl
  · rw [split_of_ne_nil (joined_ne_nil hnil hne), pieces_joined h hnil]

/-- Some pieces are found again, or there is one piece, an empty one, and none is found. -/
theorem split_joined_cons (h : ∀ q ∈ p :: ps, sep ∉ q) :
    split sep (joined [sep] (p :: ps)) = p :: ps ∨
      p = [] ∧ split sep (joined [sep] (p :: ps)) = [] := by
  by_cases hne : p :: ps = [[]]
  · rw [hne]
    exact Or.inr ⟨(List.cons.inj hne).1, rfl⟩
  · exact Or.inl (split_joined h hne)

/-- **What a text is cut into**: the pieces without the separator that are joined to it. -/
theorem split_eq_iff (hne : ps ≠ [[]]) :
    split sep s = ps ↔ s = joined [sep] ps ∧ ∀ p ∈ ps, sep ∉ p := by
  constructor
  · rintro rfl
    exact ⟨(joined_split sep s).symm, fun p hp => not_mem_of_mem_split hp⟩
  · rintro ⟨rfl, h⟩
    exact split_joined h hne

/-- A text is cut in two at the only separator that it has. -/
theorem split_eq_pair_iff :
    split sep s = [p, q] ↔ s = p ++ sep :: q ∧ sep ∉ p ∧ sep ∉ q := by
  rw [split_eq_iff (by simp), joined_pair]
  simp

/-- Joined pieces have a separator between any two neighbours, and no other. -/
theorem count_joined (h : ∀ q ∈ p :: ps, sep ∉ q) :
    (joined [sep] (p :: ps)).count sep = ps.length := by
  obtain ⟨hp, hps⟩ := List.forall_mem_cons.1 h
  rw [joined, flatten_intersperse_cons, List.count_append, List.count_eq_zero_of_not_mem hp,
    Nat.zero_add]
  clear h hp
  induction ps with
  | nil => rfl
  | cons q ps ih =>
    obtain ⟨hq, hps⟩ := List.forall_mem_cons.1 hps
    rw [List.flatMap_cons, List.count_append, List.count_append, List.count_singleton_self,
      List.count_eq_zero_of_not_mem hq, ih hps, List.length_cons, Nat.add_comm]

/-- There is one piece more than there are separators. -/
theorem length_pieces (sep : UInt8) (s : Bytes) : (pieces sep s).length = s.count sep + 1 := by
  obtain ⟨p, ps, hps⟩ := List.exists_cons_of_ne_nil (pieces_ne_nil sep s)
  have hplain : ∀ q ∈ p :: ps, sep ∉ q := fun q hq => not_mem_of_mem_pieces (hps ▸ hq)
  have hcount := count_joined hplain
  rw [← hps, joined_pieces] at hcount
  rw [hps, List.length_cons, hcount]

/-- Without a text there is no piece, and else one more than there are separators. -/
theorem length_split (sep : UInt8) (s : Bytes) :
    (split sep s).length = if s = [] then 0 else s.count sep + 1 := by
  cases s with
  | nil => rfl
  | cons b s =>
    have hne : b :: s ≠ [] := List.cons_ne_nil b s
    rw [split_of_ne_nil hne, length_pieces, if_neg hne]

end SqlPlan.Bytes
