import Mathlib.Logic.Function.Iterate
import SqlPlan.Proofs.Pieces

/-!
# A text is cut round by round

A cutter goes through a text from position to position. A round looks for the next separator: the
piece ends in front of it, and the cutter goes on behind it. Where there is none, the piece is what
is left of the text, and the cutter is done. It would overrun the text if it came to a position
behind the end.

`Cutter.iterate_round` says where a cutter is after any number of rounds: it has as many pieces as
there were rounds and stands behind the separators of these, until it has them all. So each round
finds a piece, the last round finds the last one, and nothing is overrun. `Bytes.split_lossless` is
the main statement.
-/

namespace SqlPlan

open Bytes

/-- A cutter at work. -/
inductive Cutter where
  /-- the pieces found so far, and the position where the next one begins -/
  | cutting (found : List Bytes) (start : Nat)
  /-- all pieces are found -/
  | done (found : List Bytes)
  /-- the next piece would begin behind the end of the text -/
  | overrun

namespace Cutter

variable {sep : UInt8} {s t p rest : Bytes} {ps found : List Bytes} {start n : Nat}

/-- The first separator from a position on. -/
def place? (sep : UInt8) (s : Bytes) (start : Nat) : Option Nat :=
  ((s.drop start).idxOf? sep).map (start + ·)

/-- One round of a cutter. -/
def round (sep : UInt8) (s : Bytes) : Cutter → Cutter
  | cutting found start =>
    if s.length < start then overrun
    else match place? sep s start with
      | none => done (found ++ [s.drop start])
      | some place => cutting (found ++ [(s.drop start).take (place - start)]) (place + 1)
  | done found => done found
  | overrun => overrun

/-- A cutter in front of a text. In the empty text there is no piece to find. -/
def before (s : Bytes) : Cutter := if s.isEmpty then done [] else cutting [] 0

/-! ## One round -/

theorem place?_eq_none (h : sep ∉ s.drop start) : place? sep s start = none := by
  rw [place?, List.idxOf?_eq_none_iff.2 h, Option.map_none]

theorem place?_of_drop_eq (hdrop : s.drop start = p ++ sep :: rest) (hp : sep ∉ p) :
    place? sep s start = some (start + p.length) := by
  have hfind : (p ++ sep :: rest).idxOf? sep = some p.length := by
    have hnone : p.idxOf? sep = none := List.idxOf?_eq_none_iff.2 hp
    rw [List.idxOf?] at hnone ⊢
    simp [List.findIdx?_append, List.findIdx?_cons, hnone]
  rw [place?, hdrop, hfind, Option.map_some]

/-- Where a separator is left, the round finds the piece in front of it. -/
theorem round_of_drop_eq (hdrop : s.drop start = p ++ sep :: rest) (hp : sep ∉ p) :
    round sep s (cutting found start) = cutting (found ++ [p]) (start + (p.length + 1)) := by
  have hstart : ¬s.length < start := by
    intro hlt
    rw [List.drop_eq_nil_of_le (Nat.le_of_lt hlt)] at hdrop
    exact absurd hdrop.symm (by simp)
  rw [round, if_neg hstart, place?_of_drop_eq hdrop hp]
  simp [hdrop, Nat.add_assoc]

/-- Where none is left, it finds the last piece. -/
theorem round_of_not_mem (hstart : start ≤ s.length) (h : sep ∉ s.drop start) :
    round sep s (cutting found start) = done (found ++ [s.drop start]) := by
  rw [round, if_neg (Nat.not_lt.2 hstart), place?_eq_none h]

/-! ## All rounds -/

/-- How far some pieces reach, each with a separator behind it. -/
def reach : List Bytes → Nat
  | [] => 0
  | p :: ps => p.length + 1 + reach ps

theorem reach_concat (ps : List Bytes) (p : Bytes) :
    reach (ps ++ [p]) = reach ps + (p.length + 1) := by
  induction ps with
  | nil => exact Nat.add_comm _ 0
  | cons q ps ih => rw [List.cons_append, reach, ih, reach, Nat.add_assoc _ (reach ps)]

/-- A cutter that has found the first pieces of some, or all of them. -/
def having (ps : List Bytes) (n : Nat) : Cutter :=
  if ps.length ≤ n then done ps else cutting (ps.take n) (reach (ps.take n))

/-- The first pieces and their separators stand in front of the other pieces. -/
theorem exists_front (sep : UInt8) (h : n < ps.length) :
    ∃ t, joined [sep] ps = t ++ joined [sep] (ps.drop n) ∧ t.length = reach (ps.take n) := by
  induction n generalizing ps with
  | zero => exact ⟨[], rfl, rfl⟩
  | succ n ih =>
    match ps, h with
    | p :: q :: ps, h =>
      have hn : n < (q :: ps).length := Nat.lt_of_succ_lt_succ h
      obtain ⟨t, hjoined, hlength⟩ := ih hn
      refine ⟨p ++ ([sep] ++ t), ?_, ?_⟩
      · rw [joined_cons_cons, hjoined, List.drop_succ_cons]
        simp only [List.append_assoc]
      · rw [List.take_succ_cons, reach, ← hlength]
        simp only [List.length_append, List.length_singleton]
        omega

/-- **A round finds one more of the pieces.** -/
theorem round_having (h : ∀ p ∈ ps, sep ∉ p) (n : Nat) :
    round sep (joined [sep] ps) (having ps n) = having ps (n + 1) := by
  by_cases hall : ps.length ≤ n
  · rw [having, if_pos hall, having, if_pos (Nat.le_succ_of_le hall)]
    rfl
  have hn : n < ps.length := Nat.lt_of_not_le hall
  obtain ⟨t, hjoined, hlength⟩ := exists_front sep hn
  have hdrop : (joined [sep] ps).drop (reach (ps.take n)) = joined [sep] (ps.drop n) := by
    rw [hjoined, ← hlength, List.drop_left]
  have hle : reach (ps.take n) ≤ (joined [sep] ps).length := by
    rw [hjoined, ← hlength, List.length_append]
    exact Nat.le_add_right _ _
  have htake : ps.take (n + 1) = ps.take n ++ [ps[n]] := (List.take_append_getElem hn).symm
  rw [having, if_neg hall]
  rw [List.drop_eq_getElem_cons hn] at hdrop
  cases hrest : ps.drop (n + 1) with
  | nil =>
    -- the last piece: it has no separator behind it
    have hlast : ps.length ≤ n + 1 := List.drop_eq_nil_iff.1 hrest
    have hps : ps.take n ++ [ps[n]] = ps := by rw [← htake, List.take_of_length_le hlast]
    rw [hrest, joined_singleton] at hdrop
    rw [round_of_not_mem hle (hdrop ▸ h _ (List.getElem_mem hn)), hdrop, hps, having, if_pos hlast]
  | cons q qs =>
    have hmore : ¬ps.length ≤ n + 1 := fun hlast => by
      rw [List.drop_eq_nil_of_le hlast] at hrest
      cases hrest
    rw [hrest, joined_cons_cons] at hdrop
    rw [round_of_drop_eq hdrop (h _ (List.getElem_mem hn)), having, if_neg hmore, htake,
      reach_concat]

/-- **Where a cutter is after any number of rounds.** -/
theorem iterate_round (sep : UInt8) (s : Bytes) (n : Nat) :
    (round sep s)^[n] (before s) = having (split sep s) n := by
  induction n with
  | zero =>
    cases s with
    | nil => rfl
    | cons b s =>
      have hne : ¬(split sep (b :: s)).length ≤ 0 := by
        rw [length_split, if_neg (List.cons_ne_nil b s)]
        exact Nat.not_succ_le_zero _
      rw [having, if_neg hne]
      rfl
  | succ n ih =>
    have hplain : ∀ p ∈ split sep s, sep ∉ p := fun p hp => not_mem_of_mem_split hp
    have hround := round_having hplain n
    rw [joined_split] at hround
    rw [Function.iterate_succ_apply', ih, hround]

end Cutter

namespace Bytes

/-- **Nothing is lost when a text is cut.** The pieces have no separator, there is one more of them
than there are separators, or none in the empty text, and joined with separators they are the text.
A cutter finds one of them in each round and then stands where the next one begins; it comes to an
end with every text, in the round in which it finds the last one. -/
theorem split_lossless (sep : UInt8) (s : Bytes) :
    (∀ p ∈ split sep s, sep ∉ p) ∧
    (split sep s).length = (if s = [] then 0 else s.count sep + 1) ∧
    joined [sep] (split sep s) = s ∧
    ∀ n, (Cutter.round sep s)^[n] (Cutter.before s) =
      if (split sep s).length ≤ n then .done (split sep s)
      else .cutting ((split sep s).take n) (Cutter.reach ((split sep s).take n)) :=
  ⟨fun _ hp => not_mem_of_mem_split hp, length_split sep s, joined_split sep s,
    fun n => Cutter.iterate_round sep s n⟩

/-- Separators at both ends and two in a row leave empty pieces. -/
example : split 47 (ascii "/a//b/") = [[], ascii "a", [], ascii "b", []] := by decide

end Bytes

end SqlPlan
