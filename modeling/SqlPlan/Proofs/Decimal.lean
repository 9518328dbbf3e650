import Mathlib.Data.List.TakeWhile
import SqlPlan.Decimal.Integer

/-!
# The decimal text of integers

Four facts about the writer of integers: its bytes are digits, after a minus sign where the
number is negative; the digits of a natural number spell that number (`digitsValue_natText`); so no
two integers share a text (`intText_injective`), and reading a text gives back the integer that it
was written for (`readWhole?_intText`).
-/

namespace SqlPlan.Decimal

/-! ## Digits -/

/-- A digit character has a digit byte. -/
theorem isDigit_toUInt8 {c : Char} (h : c.isDigit = true) :
    Byte.isDigit c.toNat.toUInt8 = true := by
  have hc : 48 ≤ c.toNat ∧ c.toNat ≤ 57 := by
    rw [Char.isDigit, Bool.and_eq_true, decide_eq_true_eq, decide_eq_true_eq] at h
    exact h
  have hb : c.toNat.toUInt8.toNat = c.toNat := by
    simp only [Nat.toUInt8_eq, UInt8.toNat_ofNat']
    omega
  simp only [Byte.isDigit, Bool.and_eq_true, decide_eq_true_eq, UInt8.le_iff_toNat_le, hb]
  exact hc

/-- A natural number is written in digits only. -/
theorem isDigit_of_mem_natText {n : Nat} {b : UInt8} (h : b ∈ natText n) :
    Byte.isDigit b = true := by
  obtain ⟨c, hc, rfl⟩ := List.mem_map.1 h
  exact isDigit_toUInt8 (Nat.isDigit_of_mem_toDigits (by decide) (by decide) hc)

/-- An integer is written in digits and minus signs only. -/
theorem mem_intText {n : Int} {b : UInt8} (h : b ∈ intText n) :
    b = Byte.minus ∨ Byte.isDigit b = true := by
  cases n with
  | ofNat n => exact Or.inr (isDigit_of_mem_natText h)
  | negSucc n =>
    rcases List.mem_cons.1 h with rfl | h
    · exact Or.inl rfl
    · exact Or.inr (isDigit_of_mem_natText h)

/-! ## Reading the digits back -/

/-- The byte of a digit below ten is worth the digit. -/
theorem digitChar_value {d : Nat} (h : d < 10) :
    (Nat.digitChar d).toNat.toUInt8.toNat - 48 = d := by
  revert d
  decide

/-- The digits of a longer number: those of its tens, and its ones. -/
theorem natText_of_ten_le {n : Nat} (h : 10 ≤ n) :
    natText n = natText (n / 10) ++ [(Nat.digitChar (n % 10)).toNat.toUInt8] := by
  rw [natText, Nat.toDigits_of_base_le (by decide) h, List.map_append]
  rfl

/-- The digits of a natural number spell it. -/
theorem digitsValue_natText (n : Nat) : digitsValue (natText n) = n := by
  induction n using Nat.strongRecOn with
  | _ n ih =>
    rcases Nat.lt_or_ge n 10 with h | h
    · have hn : natText n = [(Nat.digitChar n).toNat.toUInt8] := by
        rw [natText, Nat.toDigits_of_lt_base h]
        rfl
      rw [hn]
      simp only [digitsValue, List.foldl_cons, List.foldl_nil, digitChar_value h]
      omega
    · have htens := ih (n / 10) (by omega)
      rw [digitsValue] at htens
      rw [natText_of_ten_le h, digitsValue, List.foldl_append, htens]
      simp only [List.foldl_cons, List.foldl_nil, digitChar_value (Nat.mod_lt n (by decide))]
      omega

theorem natText_injective {m n : Nat} (h : natText m = natText n) : m = n := by
  rw [← digitsValue_natText m, h, digitsValue_natText n]

/-- A natural number is not written with a minus sign in front. -/
theorem natText_ne_minus_cons {n : Nat} {s : Bytes} : natText n ≠ Byte.minus :: s := by
  intro h
  have hd : Byte.isDigit Byte.minus = true :=
    isDigit_of_mem_natText (h ▸ List.mem_cons_self ..)
  exact absurd hd (by decide)

/-- **No two integers have one text.** -/
theorem intText_injective {m n : Int} (h : intText m = intText n) : m = n := by
  cases m with
  | ofNat m =>
    cases n with
    | ofNat n => rw [natText_injective h]
    | negSucc n => exact absurd h natText_ne_minus_cons
  | negSucc m =>
    cases n with
    | ofNat n => exact absurd h.symm natText_ne_minus_cons
    | negSucc n =>
      have hmn : m + 1 = n + 1 := natText_injective (List.cons.inj h).2
      rw [Nat.succ.inj hmn]

/-! ## Reading a whole text -/

/-- A digit is no white space and no sign. -/
theorem isSpace_of_isDigit {b : UInt8} (h : Byte.isDigit b = true) :
    Byte.isSpace b = false ∧ b ≠ Byte.minus ∧ b ≠ Byte.plus := by
  revert h
  rw [Byte.isDigit, Byte.isSpace]
  grind

theorem natText_ne_nil (n : Nat) : natText n ≠ [] := by
  rw [natText, Ne, List.map_eq_nil_iff]
  exact Nat.toDigits_ne_nil

/-- **Reading the text of an integer gives the integer.** -/
theorem readWhole?_intText (n : Int) : readWhole? (intText n) = some n := by
  have htake : ∀ n, (natText n).takeWhile Byte.isDigit = natText n := fun n =>
    List.takeWhile_eq_self_iff.2 fun _ hb => isDigit_of_mem_natText hb
  have hdrop : ∀ n, (natText n).dropWhile Byte.isDigit = [] := fun n =>
    List.dropWhile_eq_nil_iff.2 fun _ hb => isDigit_of_mem_natText hb
  have hempty : ∀ n, (natText n).isEmpty = false := fun n =>
    List.isEmpty_eq_false_iff.2 (natText_ne_nil n)
  cases n with
  | ofNat n =>
    have hsign : sign ((natText n).dropWhile Byte.isSpace) = (false, natText n) := by
      obtain ⟨b, s, hs⟩ := List.exists_cons_of_ne_nil (natText_ne_nil n)
      have hb := isSpace_of_isDigit (isDigit_of_mem_natText (hs ▸ List.mem_cons_self))
      rw [hs, List.dropWhile_cons, hb.1, if_neg Bool.false_ne_true, sign, if_neg hb.2.1,
        if_neg hb.2.2]
    simp [readWhole?, readLeading?, intText, hsign, htake, hdrop, hempty, digitsValue_natText,
      signed]
  | negSucc n =>
    have hsign : sign ((Byte.minus :: natText (n + 1)).dropWhile Byte.isSpace) =
        (true, natText (n + 1)) := rfl
    simp [readWhole?, readLeading?, intText, hsign, htake, hdrop, hempty, digitsValue_natText,
      signed, Int.negSucc_eq]

end SqlPlan.Decimal
