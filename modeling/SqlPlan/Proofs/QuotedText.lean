import SqlPlan.Proofs.Expansion

/-!
# Quoted texts are read back

A reader of literals takes what stands behind an opening quote, up to the first quote that has no
second one behind it; two quotes in a row stand for one. It does not know how long the text is that
was quoted, and still reads exactly this text and stops exactly behind it, whatever bytes the text
has (`readQuoted?_eq_some_iff`). The one thing that a quoted text needs is that no quote follows it.

`quoted_delimits` is the main statement. `Placeholder.readQuoted?_expand` says what it is good for:
in an expanded statement each text can be read back at the place of its placeholder.
-/

namespace SqlPlan

open Placeholder

variable {b : UInt8} {s t u rest : Bytes} {v : Value} {vs ws : List Value}

/-! ## A reader of literals -/

/-- The text between an opening quote, which was read before, and the closing one, with what is
behind it. There is none where the quote is not closed. -/
def readBody? : Bytes → Option (Bytes × Bytes)
  | [] => none
  | b :: s =>
    if b = Byte.quote then
      match s with
      | [] => some ([], [])
      | c :: u =>
        if c = Byte.quote then (readBody? u).map (Prod.map (Byte.quote :: ·) id)
        else some ([], c :: u)
    else (readBody? s).map (Prod.map (b :: ·) id)

/-- The text of the literal at the beginning of a text, with what is behind it. -/
def readQuoted? : Bytes → Option (Bytes × Bytes)
  | [] => none
  | b :: s => if b = Byte.quote then readBody? s else none

/-- A byte that is no quote belongs to the body. -/
theorem readBody?_of_ne (h : b ≠ Byte.quote) :
    readBody? (b :: s) = (readBody? s).map (Prod.map (b :: ·) id) := by
  rw [readBody?.eq_def]
  exact if_neg h

/-- Two quotes stand for one. -/
theorem readBody?_quote_quote :
    readBody? (Byte.quote :: Byte.quote :: s) =
      (readBody? s).map (Prod.map (Byte.quote :: ·) id) := by
  rw [readBody?, if_pos rfl]
  exact if_pos rfl

/-- A quote that no quote follows is the closing one. -/
theorem readBody?_closing (h : rest.head? ≠ some Byte.quote) :
    readBody? (Byte.quote :: rest) = some ([], rest) := by
  cases rest with
  | nil => rfl
  | cons c u =>
    rw [readBody?, if_pos rfl, if_neg fun hc => h (congrArg some hc)]

/-! ## The inside of a quoted text -/

theorem doubled_quote_cons (s : Bytes) :
    doubled (Byte.quote :: s) = Byte.quote :: Byte.quote :: doubled s := rfl

theorem doubled_cons (h : b ≠ Byte.quote) : doubled (b :: s) = b :: doubled s := by
  rw [doubled, List.flatMap_cons, if_neg h, ← doubled]
  rfl

/-- What is written inside quotes is read up to the closing quote. -/
theorem readBody?_doubled (s : Bytes) (h : rest.head? ≠ some Byte.quote) :
    readBody? (doubled s ++ Byte.quote :: rest) = some (s, rest) := by
  induction s with
  | nil => exact readBody?_closing h
  | cons b s ih =>
    by_cases hb : b = Byte.quote
    · rw [hb, doubled_quote_cons, List.cons_append, List.cons_append, readBody?_quote_quote, ih]
      rfl
    · rw [doubled_cons hb, List.cons_append, readBody?_of_ne hb, ih]
      rfl

/-- Nothing else is read: where the reader comes to an end, it has passed a text as it is written
inside quotes, and a closing quote. -/
theorem eq_of_readBody? (h : readBody? u = some (s, rest)) :
    u = doubled s ++ Byte.quote :: rest ∧ rest.head? ≠ some Byte.quote := by
  fun_induction readBody? u generalizing s with
  | case1 => cases h
  | case2 =>
    -- the quote ends the whole text
    cases h
    exact ⟨rfl, nofun⟩
  | case3 u ih =>
    obtain ⟨⟨t, r⟩, hread, heq⟩ := Option.map_eq_some_iff.1 h
    cases heq
    obtain ⟨rfl, hrest⟩ := ih hread
    exact ⟨rfl, hrest⟩
  | case4 c u hc =>
    -- another byte behind the quote
    cases h
    exact ⟨rfl, fun hhead => hc (Option.some.inj hhead)⟩
  | case5 b u hb ih =>
    obtain ⟨⟨t, r⟩, hread, heq⟩ := Option.map_eq_some_iff.1 h
    cases heq
    obtain ⟨rfl, hrest⟩ := ih hread
    refine ⟨?_, hrest⟩
    dsimp only
    rw [doubled_cons hb, List.cons_append]

/-! ## Quoted texts -/

theorem quoted_append (s t : Bytes) :
    quoted s ++ t = Byte.quote :: (doubled s ++ Byte.quote :: t) := by
  rw [quoted, List.append_assoc]
  rfl

/-- **What a reader of literals reads**: a quoted text that no quote follows. -/
theorem readQuoted?_eq_some_iff :
    readQuoted? u = some (s, t) ↔ u = quoted s ++ t ∧ t.head? ≠ some Byte.quote := by
  rw [quoted_append]
  refine ⟨fun h => ?_, ?_⟩
  · cases u with
    | nil => cases h
    | cons b u =>
      obtain ⟨rfl, hread⟩ := Option.ite_none_right_eq_some.1 h
      obtain ⟨rfl, hrest⟩ := eq_of_readBody? hread
      exact ⟨rfl, hrest⟩
  · rintro ⟨rfl, hrest⟩
    rw [readQuoted?, if_pos rfl]
    exact readBody?_doubled s hrest

/-- Two quoted texts with something behind them are told apart, unless a quote follows. -/
theorem quoted_append_inj {s' t' : Bytes} (ht : t.head? ≠ some Byte.quote)
    (ht' : t'.head? ≠ some Byte.quote) (h : quoted s ++ t = quoted s' ++ t') : s = s' ∧ t = t' := by
  have hread : readQuoted? (quoted s ++ t) = some (s, t) := readQuoted?_eq_some_iff.2 ⟨rfl, ht⟩
  have hread' : readQuoted? (quoted s ++ t) = some (s', t') := readQuoted?_eq_some_iff.2 ⟨h, ht'⟩
  rw [hread] at hread'
  exact Prod.mk.inj (Option.some.inj hread')

/-- Two texts are never quoted alike. -/
theorem quoted_injective (h : quoted s = quoted t) : s = t := by
  have happend : quoted s ++ [] = quoted t ++ [] := by rw [h]
  have hnil : ([] : Bytes).head? ≠ some Byte.quote := by decide
  exact (quoted_append_inj hnil hnil happend).1

/-- A literal without quotes is no quoted text. -/
theorem ne_quoted_of_inert (h : Inert u) : u ≠ quoted s := by
  rintro rfl
  have hquote := (h Byte.quote (List.mem_append_left _ List.mem_cons_self)).2
  exact absurd hquote (by decide)

/-- The literal of a text is that of no other value. -/
theorem literal_eq_quoted_iff : v.literal = quoted s ↔ v = .text s := by
  refine ⟨fun h => ?_, fun h => by rw [h, Value.literal]⟩
  cases v with
  | null => exact absurd h (ne_quoted_of_inert (by decide))
  | integer n => exact absurd h (ne_quoted_of_inert (inert_intText n.toInt))
  | real x => exact absurd h (ne_quoted_of_inert (inert_general 6 x))
  | text t => rw [quoted_injective h]

/-- **A quoted text shows where it ends.** With any text behind it that does not begin with a quote,
it is read as exactly the text that was quoted, and exactly the other text is left; and nothing else
is read so. Hence different texts are quoted differently, and no other value has such a literal. -/
theorem quoted_delimits (s : Bytes) :
    (∀ u t, readQuoted? u = some (s, t) ↔ u = quoted s ++ t ∧ t.head? ≠ some Byte.quote) ∧
    (∀ s', quoted s = quoted s' ↔ s = s') ∧
    ∀ v : Value, v.literal = quoted s ↔ v = .text s :=
  ⟨fun _ _ => readQuoted?_eq_some_iff, fun _ => ⟨quoted_injective, congrArg quoted⟩,
    fun _ => literal_eq_quoted_iff⟩

/-- Only quotes: the text of two quotes, with a blank behind it. -/
example : readQuoted? (quoted (ascii "''") ++ ascii " '") = some (ascii "''", ascii " '") := by
  decide

/-! ## Texts in an expanded statement -/

namespace Placeholder

/-- What does not begin with a placeholder is expanded to something with the same beginning. -/
theorem head?_expand (h : rest.head? ≠ some Byte.question) (vs : List Value) :
    (expand rest vs).head? = rest.head? := by
  cases rest with
  | nil => rfl
  | cons b rest =>
    have hb : b ≠ Byte.question := fun hb => h (congrArg some hb)
    cases vs with
    | nil => rfl
    | cons v vs =>
      rw [expand, expandFrom, isPlaceholder]
      simp [hb]

/-- **A text is read back from an expanded statement** at the place of its placeholder, if neither a
quote nor another placeholder comes directly behind that. -/
theorem readQuoted?_expand (hcount : count t = vs.length) (hscan : scan none t = none)
    (hquote : rest.head? ≠ some Byte.quote) (hquestion : rest.head? ≠ some Byte.question) :
    ∃ behind, expand (t ++ Byte.question :: rest) (vs ++ .text s :: ws) = expand t vs ++ behind ∧
      readQuoted? behind = some (s, expand rest ws) := by
  refine ⟨quoted s ++ expand rest ws, ?_, readQuoted?_eq_some_iff.2 ⟨rfl, ?_⟩⟩
  · rw [expand, expandFrom_append hcount, hscan]
    rfl
  · rwa [head?_expand hquestion]

end Placeholder

end SqlPlan
