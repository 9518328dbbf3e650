import SqlPlan.Proofs.Decimal

/-!
# What is read as an integer

A numeral is white space, a sign or none, and digits (`Decimal.IsNumeral`). A reader of integers
reads the longest numeral at the beginning of a text (`readLeading?_eq_some_iff`), and a reader of
whole texts reads the numerals (`readWhole?_eq_some_iff`), so a numeral spells one integer.
-/

namespace SqlPlan.Decimal

variable {s rest : Bytes} {m n : Int}

/-- The signs of a numeral, and whether they make it negative. -/
def signs : List (Bytes × Bool) := [([], false), ([Byte.plus], false), ([Byte.minus], true)]

/-- A text **is a numeral** for an integer: white space, a sign or none, and digits. -/
def IsNumeral (s : Bytes) (n : Int) : Prop :=
  ∃ blank mark digits negative, s = blank ++ (mark ++ digits) ∧
    (∀ b ∈ blank, Byte.isSpace b = true) ∧ (mark, negative) ∈ signs ∧
    digits ≠ [] ∧ (∀ d ∈ digits, Byte.isDigit d = true) ∧ n = signed negative (digitsValue digits)

/-- A text **begins with a numeral** for an integer, and the rest goes on with no digit. -/
def Begins (s : Bytes) (n : Int) (rest : Bytes) : Prop :=
  ∃ t, s = t ++ rest ∧ IsNumeral t n ∧ ∀ b ∈ rest.head?, Byte.isDigit b = false

/-- The parts that a reader finds. -/
theorem readLeading?_eq (s : Bytes) :
    readLeading? s =
      let u := sign (s.dropWhile Byte.isSpace)
      if (u.2.takeWhile Byte.isDigit).isEmpty then none
      else some (signed u.1 (digitsValue (u.2.takeWhile Byte.isDigit)),
        u.2.dropWhile Byte.isDigit) := rfl

/-- What is found as a sign is one, and nothing else is taken. -/
theorem exists_sign (u : Bytes) : ∃ mark, (mark, (sign u).1) ∈ signs ∧ u = mark ++ (sign u).2 := by
  cases u with
  | nil => exact ⟨[], .head _, rfl⟩
  | cons b u =>
    rw [sign]
    by_cases hminus : b = Byte.minus
    · rw [if_pos hminus]
      exact ⟨[Byte.minus], .tail _ (.tail _ (.head _)), by rw [hminus]; rfl⟩
    · rw [if_neg hminus]
      by_cases hplus : b = Byte.plus
      · rw [if_pos hplus]
        exact ⟨[Byte.plus], .tail _ (.head _), by rw [hplus]; rfl⟩
      · rw [if_neg hplus]
        exact ⟨[], .head _, rfl⟩

/-- A sign in front of a digit is found. -/
theorem sign_append {mark : Bytes} {negative : Bool} (h : (mark, negative) ∈ signs) {d : UInt8}
    (hd : Byte.isDigit d = true) (u : Bytes) : sign (mark ++ d :: u) = (negative, d :: u) := by
  obtain ⟨-, hminus, hplus⟩ := isSpace_of_isDigit hd
  simp only [signs, List.mem_cons, List.not_mem_nil, or_false, Prod.mk.injEq] at h
  rcases h with ⟨rfl, rfl⟩ | ⟨rfl, rfl⟩ | ⟨rfl, rfl⟩
  · rw [List.nil_append, sign, if_neg hminus, if_neg hplus]
  · rfl
  · rfl

/-- A sign and a digit behind it are no white space. -/
theorem dropWhile_isSpace_sign {mark : Bytes} {negative : Bool} (h : (mark, negative) ∈ signs)
    {d : UInt8} (hd : Byte.isDigit d = true) (u : Bytes) :
    (mark ++ d :: u).dropWhile Byte.isSpace = mark ++ d :: u := by
  simp only [signs, List.mem_cons, List.not_mem_nil, or_false, Prod.mk.injEq] at h
  rcases h with ⟨rfl, rfl⟩ | ⟨rfl, rfl⟩ | ⟨rfl, rfl⟩
  · rw [List.nil_append, List.dropWhile_cons_of_neg (by rw [(isSpace_of_isDigit hd).1]; decide)]
  · rfl
  · rfl

/-- Digits end in front of a rest that goes on with none. -/
theorem takeWhile_rest (h : ∀ b ∈ rest.head?, Byte.isDigit b = false) :
    rest.takeWhile Byte.isDigit = [] ∧ rest.dropWhile Byte.isDigit = rest := by
  cases rest with
  | nil => exact ⟨rfl, rfl⟩
  | cons b rest =>
    have hb : ¬Byte.isDigit b = true := by rw [h b rfl]; decide
    exact ⟨List.takeWhile_cons_of_neg hb, List.dropWhile_cons_of_neg hb⟩

/-- **A reader of integers reads the numeral that a text begins with**, with all its digits. -/
theorem readLeading?_eq_some_iff : readLeading? s = some (n, rest) ↔ Begins s n rest := by
  constructor
  · intro h
    obtain ⟨mark, hmark, hu⟩ := exists_sign (s.dropWhile Byte.isSpace)
    simp only [readLeading?_eq, Option.ite_none_left_eq_some, Option.some_inj, Prod.mk.injEq] at h
    obtain ⟨hdigits, rfl, rfl⟩ := h
    generalize sign (s.dropWhile Byte.isSpace) = u at *
    -- the numeral is the blanks, the sign and the digits that were passed over
    refine ⟨s.takeWhile Byte.isSpace ++ (mark ++ u.2.takeWhile Byte.isDigit), ?_,
      ⟨_, mark, _, u.1, rfl, fun b hb => List.mem_takeWhile_imp hb, hmark, ?_,
        fun d hd => List.mem_takeWhile_imp hd, rfl⟩, fun b hb => ?_⟩
    · rw [List.append_assoc, List.append_assoc, List.takeWhile_append_dropWhile, ← hu,
        List.takeWhile_append_dropWhile]
    · simpa [List.isEmpty_iff] using hdigits
    · have hhead := List.head?_dropWhile_not Byte.isDigit u.2
      rw [Option.mem_def.1 hb] at hhead
      exact hhead
  · rintro ⟨_, rfl, ⟨blank, mark, digits, negative, rfl, hblank, hmark, hne, hdigits, rfl⟩, hrest⟩
    obtain ⟨d, ds, rfl⟩ := List.exists_cons_of_ne_nil hne
    have hd := hdigits d List.mem_cons_self
    -- blanks and digits end where the grammar says, so the reader stops there
    have hu : sign ((blank ++ (mark ++ d :: ds) ++ rest).dropWhile Byte.isSpace) =
        (negative, d :: ds ++ rest) := by
      rw [List.append_assoc, List.dropWhile_append_of_pos hblank, List.append_assoc,
        List.cons_append, dropWhile_isSpace_sign hmark hd, sign_append hmark hd]
    have htake : (d :: ds ++ rest).takeWhile Byte.isDigit = d :: ds := by
      rw [List.takeWhile_append_of_pos hdigits, (takeWhile_rest hrest).1, List.append_nil]
    have hdrop : (d :: ds ++ rest).dropWhile Byte.isDigit = rest := by
      rw [List.dropWhile_append_of_pos hdigits, (takeWhile_rest hrest).2]
    rw [readLeading?_eq]
    simp only [hu, htake, hdrop]
    rfl

/-- A text that begins with a numeral and has no rest is one. -/
theorem begins_nil : Begins s n [] ↔ IsNumeral s n := by
  constructor
  · rintro ⟨t, rfl, ht, -⟩
    rwa [List.append_nil]
  · exact fun h => ⟨s, (List.append_nil s).symm, h, fun b hb => by cases hb⟩

/-- A text begins with a numeral for one integer only. -/
theorem Begins.unique {rest' : Bytes} (h : Begins s m rest) (h' : Begins s n rest') :
    m = n ∧ rest = rest' := by
  rw [← readLeading?_eq_some_iff] at h h'
  exact Prod.mk.inj (Option.some.inj (h.symm.trans h'))

/-- **A reader of whole texts reads the numerals.** -/
theorem readWhole?_eq_some_iff : readWhole? s = some n ↔ IsNumeral s n := by
  rw [← begins_nil, ← readLeading?_eq_some_iff, readWhole?]
  constructor
  · intro h
    split at h
    · rename_i hread
      rw [hread, Option.some.inj h]
    · cases h
  · intro h
    rw [h]

/-- The text of an integer is a numeral for it. -/
theorem isNumeral_intText (n : Int) : IsNumeral (intText n) n :=
  readWhole?_eq_some_iff.1 (readWhole?_intText n)

/-- A numeral has white space, signs and digits. -/
theorem IsNumeral.bytes (h : IsNumeral s n) {b : UInt8} (hb : b ∈ s) :
    Byte.isSpace b = true ∨ b ∈ [Byte.plus, Byte.minus] ∨ Byte.isDigit b = true := by
  obtain ⟨blank, mark, digits, negative, rfl, hblank, hmark, -, hdigits, -⟩ := h
  have hsigns : ∀ m ∈ signs, ∀ b ∈ m.1, b ∈ [Byte.plus, Byte.minus] := by
    simp [signs]
  rcases List.mem_append.1 hb with hb | hb
  · exact Or.inl (hblank b hb)
  · rcases List.mem_append.1 hb with hb | hb
    · exact Or.inr (Or.inl (hsigns _ hmark b hb))
    · exact Or.inr (Or.inr (hdigits b hb))

/-! ## Numerals of 64 bits -/

/-- An integer has a place in 64 bits. -/
abbrev Fits64 (n : Int) : Prop := Int64.minValue.toInt ≤ n ∧ n ≤ Int64.maxValue.toInt

theorem fits64_toInt (k : Int64) : Fits64 k.toInt := ⟨k.minValue_le_toInt, k.toInt_le⟩

/-- A number of 64 bits is kept as it is. -/
theorem toInt_ofInt_of_fits64 (h : Fits64 n) : (Int64.ofInt n).toInt = n := by
  have hmin : Int64.minValue.toInt = -2 ^ 63 := rfl
  have hmax : Int64.maxValue.toInt = 2 ^ 63 - 1 := rfl
  exact Int64.toInt_ofInt_of_le (by omega) (by omega)

/-- **A reader of 64 bits** reads the numerals that fit, up to the first NUL byte, and nothing at
all as zero. -/
theorem readInt64?_eq_some_iff {k : Int64} :
    readInt64? s = some k ↔
      (Bytes.upToNul s = [] ∧ k = 0) ∨ IsNumeral (Bytes.upToNul s) k.toInt := by
  rw [readInt64?]
  generalize Bytes.upToNul s = c
  by_cases hc : c = []
  · subst hc
    have hnot : ¬IsNumeral [] k.toInt := fun h => nomatch readWhole?_eq_some_iff.2 h
    simp [hnot, eq_comm]
  · have hne : ¬c.isEmpty = true := fun h => hc (List.isEmpty_iff.1 h)
    simp only [if_neg hne, hc, false_and, false_or]
    rw [Option.bind_eq_some_iff]
    constructor
    · rintro ⟨n, hread, hk⟩
      split at hk
      · rename_i hfits
        obtain rfl := Option.some.inj hk
        rw [toInt_ofInt_of_fits64 hfits]
        exact readWhole?_eq_some_iff.1 hread
      · cases hk
    · intro h
      refine ⟨k.toInt, readWhole?_eq_some_iff.2 h, ?_⟩
      rw [if_pos (fits64_toInt k), Int64.ofInt_toInt]

/-! ## Numerals of 32 bits -/

/-- An integer has a place in 32 bits. -/
abbrev Fits32 (n : Int) : Prop := Int32.minValue.toInt ≤ n ∧ n ≤ Int32.maxValue.toInt

theorem fits32_natCast {n : Nat} (h : n ≤ 2147483647) : Fits32 n := by
  have hmin : Int32.minValue.toInt = -2147483648 := rfl
  have hmax : Int32.maxValue.toInt = 2147483647 := rfl
  constructor <;> omega

/-- The numeral that a text begins with is read if its number is one of 32 bits, and out of range if
not. -/
theorem readLeadingInt32_of_begins (h : Begins s n rest) :
    readLeadingInt32 s = if Fits32 n then .ok n else .error .outOfRange := by
  rw [readLeadingInt32, readLeading?_eq_some_iff.2 h]

/-- A text that begins with no numeral has no digits to read. -/
theorem readLeadingInt32_of_not_begins (h : ¬∃ n rest, Begins s n rest) :
    readLeadingInt32 s = .error .noDigits := by
  have hnone : readLeading? s = none :=
    Option.eq_none_iff_forall_ne_some.2 fun r hr => h ⟨r.1, r.2, readLeading?_eq_some_iff.1 hr⟩
  rw [readLeadingInt32, hnone]

/-- A number is read exactly where a numeral for it stands in front, and fits. -/
theorem readLeadingInt32_eq_ok_iff :
    readLeadingInt32 s = .ok n ↔ ∃ rest, Begins s n rest ∧ Fits32 n := by
  by_cases h : ∃ n rest, Begins s n rest
  · obtain ⟨m, rest, hm⟩ := h
    rw [readLeadingInt32_of_begins hm]
    constructor
    · intro h
      split at h
      · rename_i hfits
        obtain rfl := Except.ok.inj h
        exact ⟨rest, hm, hfits⟩
      · cases h
    · rintro ⟨rest', hn, hfits⟩
      obtain ⟨rfl, -⟩ := hm.unique hn
      rw [if_pos hfits]
  · rw [readLeadingInt32_of_not_begins h]
    exact ⟨fun hok => (by cases hok), fun ⟨rest, hn, _⟩ => absurd ⟨n, rest, hn⟩ h⟩

/-- It is out of range exactly where such a numeral does not fit. -/
theorem readLeadingInt32_eq_outOfRange_iff :
    readLeadingInt32 s = .error .outOfRange ↔ ∃ n rest, Begins s n rest ∧ ¬Fits32 n := by
  by_cases h : ∃ n rest, Begins s n rest
  · obtain ⟨m, rest, hm⟩ := h
    rw [readLeadingInt32_of_begins hm]
    constructor
    · intro h
      split at h
      · cases h
      · rename_i hfits
        exact ⟨m, rest, hm, hfits⟩
    · rintro ⟨n, rest', hn, hfits⟩
      obtain ⟨rfl, -⟩ := hm.unique hn
      rw [if_neg hfits]
  · rw [readLeadingInt32_of_not_begins h]
    exact ⟨fun herror => (by cases herror), fun ⟨n, rest, hn, _⟩ => absurd ⟨n, rest, hn⟩ h⟩

end SqlPlan.Decimal
