import SqlPlan.Proofs.Numerals
import SqlPlan.Proofs.Outcome
import SqlPlan.Record

/-!
# Integers out of values

An integer and a text each denote at most one integer (`Value.Denotes`): an integer itself, and a
text the numeral that it is up to its first NUL byte, if that fits in 64 bits; a text that begins
with NUL denotes zero. A field of an integer type gets that integer or the value is refused, and it
gets it exactly when the integer lies in the range of the type. The range of unsigned integers of 64
bits is cut at the largest signed one, since a value holds no larger one.

`Value.integers_exact` is the main statement.
-/

namespace SqlPlan

/-! ## Integer types -/

/-- The types of fields that hold integers. -/
inductive IntegerType where
  | int32
  | uint32
  | int64
  | uint64

namespace IntegerType

/-- The type as that of a field. -/
@[reducible] def field : IntegerType → FieldType
  | .int32 => .int32
  | .uint32 => .uint32
  | .int64 => .int64
  | .uint64 => .uint64

/-- The least integer that is read. -/
def least : IntegerType → Int
  | .int32 => -2147483648
  | .int64 => -9223372036854775808
  | .uint32 | .uint64 => 0

/-- The greatest integer that is read. -/
def greatest : IntegerType → Int
  | .int32 => 2147483647
  | .uint32 => 4294967295
  | .int64 | .uint64 => 9223372036854775807

/-- The integer in a field. -/
def number : (t : IntegerType) → t.field.Carrier → Int
  | .int32, n => n.toInt
  | .uint32, n => n.toNat
  | .int64, n => n.toInt
  | .uint64, n => n.toNat

/-- The content of a field for an integer of 64 bits. -/
def ofInt64 : (t : IntegerType) → Int64 → t.field.Carrier
  | .int32, n => n.toInt32
  | .uint32, n => n.toUInt64.toUInt32
  | .int64, n => n
  | .uint64, n => n.toUInt64

/-- An integer lies in the range of a type. -/
def Takes (t : IntegerType) (n : Int) : Prop := t.least ≤ n ∧ n ≤ t.greatest

theorem toNat_toUInt64 {n : Int64} (h : 0 ≤ n.toInt) : (n.toUInt64.toNat : Int) = n.toInt := by
  have hn : (0 : Int64) ≤ n := Int64.le_iff_toInt_le.2 h
  rw [Int64.toNat_toUInt64_of_le hn, Int64.toNatClampNeg, Int.toNat_of_nonneg h]

/-- **An integer in the range of a type is not changed.** -/
theorem number_ofInt64 {t : IntegerType} {n : Int64} (h : t.Takes n.toInt) :
    t.number (t.ofInt64 n) = n.toInt := by
  obtain ⟨hleast, hgreatest⟩ := h
  cases t with
  | int32 =>
    simp only [least, greatest] at hleast hgreatest
    rw [ofInt64, number, Int64.toInt_toInt32]
    exact Int.bmod_eq_of_le (by omega) (by omega)
  | uint32 =>
    simp only [least, greatest] at hleast hgreatest
    have hnat := toNat_toUInt64 hleast
    rw [ofInt64, number, UInt64.toNat_toUInt32, Nat.mod_eq_of_lt (by omega), hnat]
  | int64 => rfl
  | uint64 => exact toNat_toUInt64 hleast

end IntegerType

namespace Value

open Decimal

variable {v : Value} {s : Bytes} {n : Int} {k : Int64} {lo hi : Int} {e : ConversionError}

/-! ## The integer of a value -/

/-- A value **denotes** an integer. -/
inductive Denotes : Value → Int → Prop where
  /-- an integer, itself -/
  | integer (k : Int64) : Denotes (.integer k) k.toInt
  /-- a text with nothing before its first NUL byte, zero -/
  | nothing {s : Bytes} : s ≠ [] → Bytes.upToNul s = [] → Denotes (.text s) 0
  /-- a text that is a numeral up to its first NUL byte, the integer of the numeral -/
  | numeral {s : Bytes} {n : Int} : IsNumeral (Bytes.upToNul s) n → Fits64 n → Denotes (.text s) n

theorem denotes_integer : Denotes (.integer k) n ↔ n = k.toInt := by
  constructor
  · intro h
    cases h
    rfl
  · rintro rfl
    exact .integer k

theorem denotes_text :
    Denotes (.text s) n ↔ s ≠ [] ∧
      ((Bytes.upToNul s = [] ∧ n = 0) ∨ (IsNumeral (Bytes.upToNul s) n ∧ Fits64 n)) := by
  constructor
  · intro h
    cases h with
    | nothing hs hnul => exact ⟨hs, .inl ⟨hnul, rfl⟩⟩
    | numeral hnumeral hfits =>
      refine ⟨?_, .inr ⟨hnumeral, hfits⟩⟩
      rintro rfl
      exact nomatch readWhole?_eq_some_iff.2 hnumeral
  · rintro ⟨hs, ⟨hnul, rfl⟩ | ⟨hnumeral, hfits⟩⟩
    · exact .nothing hs hnul
    · exact .numeral hnumeral hfits

/-- What a value denotes fits in 64 bits. -/
theorem Denotes.exists_int64 (h : v.Denotes n) : ∃ k : Int64, k.toInt = n := by
  cases h with
  | integer k => exact ⟨k, rfl⟩
  | nothing => exact ⟨0, rfl⟩
  | numeral _ hfits => exact ⟨.ofInt n, toInt_ofInt_of_fits64 hfits⟩

/-- Of the texts, those that are not empty are read. -/
theorem asInteger_text_eq_ok_iff :
    (Value.text s).asInteger = .ok k ↔ s ≠ [] ∧ readInt64? s = some k := by
  rw [asInteger]
  by_cases hs : s = []
  · rw [if_pos (List.isEmpty_iff.2 hs)]
    exact iff_of_false (fun h => nomatch h) fun h => h.1 hs
  · rw [if_neg fun h => hs (List.isEmpty_iff.1 h)]
    cases readInt64? s with
    | none => exact iff_of_false (fun h => nomatch h) fun h => nomatch h.2
    | some m => simp [hs]

/-- **A value that is no real converts to the integer that it denotes**, and to nothing else. -/
theorem asInteger_eq_ok_iff (hv : v.family ≠ .real) : v.asInteger = .ok k ↔ v.Denotes k.toInt := by
  cases v with
  | null => exact iff_of_false (fun h => nomatch h) (fun h => nomatch h)
  | integer m =>
    rw [denotes_integer, Int64.toInt_inj]
    exact Except.pure_eq_ok
  | real x => exact absurd rfl hv
  | text s =>
    have hzero : k.toInt = 0 ↔ k = 0 := Int64.toInt_inj (y := 0)
    rw [asInteger_text_eq_ok_iff, readInt64?_eq_some_iff, denotes_text, hzero]
    rw [and_iff_left (fits64_toInt k)]

/-! ## Integers of a range -/

theorem asIntegerIn_eq_ok_iff :
    v.asIntegerIn lo hi = .ok k ↔ v.asInteger = .ok k ∧ lo ≤ k.toInt ∧ k.toInt ≤ hi := by
  rw [asIntegerIn, Except.bind_eq_ok]
  constructor
  · rintro ⟨m, hm, h⟩
    obtain ⟨hrange, hk⟩ := Except.guard_eq_ok.1 h
    obtain rfl := Except.ok.inj hk
    exact ⟨hm, by omega, by omega⟩
  · rintro ⟨hk, hlo, hhi⟩
    exact ⟨k, hk, Except.guard_eq_ok.2 ⟨by omega, rfl⟩⟩

/-- A refusal is that of the value as an integer, or says that the integer is out of range. -/
theorem asIntegerIn_eq_error_iff :
    v.asIntegerIn lo hi = .error e ↔ v.asInteger = .error e ∨
      e = .outOfRange v ∧ ∃ k, v.asInteger = .ok k ∧ ¬(lo ≤ k.toInt ∧ k.toInt ≤ hi) := by
  rw [asIntegerIn, Except.bind_eq_error]
  refine or_congr_right ?_
  constructor
  · rintro ⟨k, hk, h⟩
    split at h
    · rename_i hrange
      exact ⟨(Except.error.inj h).symm, k, hk, by omega⟩
    · cases h
  · rintro ⟨rfl, k, hk, hrange⟩
    exact ⟨k, hk, if_pos (by omega)⟩

/-- The range of all integers of 64 bits excludes none. -/
theorem asIntegerIn_int64 (v : Value) :
    v.asIntegerIn IntegerType.int64.least IntegerType.int64.greatest = v.asInteger := by
  cases h : v.asInteger with
  | error e => exact asIntegerIn_eq_error_iff.2 (.inl h)
  | ok k =>
    exact asIntegerIn_eq_ok_iff.2 ⟨h, k.minValue_le_toInt, k.toInt_le⟩

/-- Every integer type reads an integer of its range. -/
theorem read_eq (t : IntegerType) (v : Value) :
    t.field.read v = (v.asIntegerIn t.least t.greatest).map t.ofInt64 := by
  cases t with
  | int64 =>
    rw [asIntegerIn_int64]
    change v.asInteger = v.asInteger.map id
    cases v.asInteger <;> rfl
  | int32 | uint32 | uint64 => rfl

/-- **What a field of an integer type gets**: the integer that the value denotes, if it lies in the
range of the type. -/
theorem exists_read_iff (hv : v.family ≠ .real) (t : IntegerType) :
    (∃ x, t.field.read v = .ok x ∧ t.number x = n) ↔ v.Denotes n ∧ t.Takes n := by
  have hmap : ∀ x, t.field.read v = .ok x ↔
      ∃ k, v.asIntegerIn t.least t.greatest = .ok k ∧ x = t.ofInt64 k := by
    intro x
    rw [read_eq]
    exact Except.map_eq_ok
  constructor
  · rintro ⟨x, hx, rfl⟩
    obtain ⟨k, hk, rfl⟩ := (hmap x).1 hx
    obtain ⟨hinteger, hrange⟩ := asIntegerIn_eq_ok_iff.1 hk
    rw [IntegerType.number_ofInt64 hrange]
    exact ⟨(asInteger_eq_ok_iff hv).1 hinteger, hrange⟩
  · rintro ⟨hdenotes, hrange⟩
    obtain ⟨k, rfl⟩ := hdenotes.exists_int64
    have hk : v.asIntegerIn t.least t.greatest = .ok k :=
      asIntegerIn_eq_ok_iff.2 ⟨(asInteger_eq_ok_iff hv).2 hdenotes, hrange⟩
    exact ⟨t.ofInt64 k, (hmap _).2 ⟨k, hk, rfl⟩, IntegerType.number_ofInt64 hrange⟩

/-- What a field refuses does not denote an integer, or the refusal names it as out of range. -/
theorem refusal_of_read (hv : v.family ≠ .real) {t : IntegerType}
    (h : t.field.read v = .error e) :
    v.asInteger = .error e ∨ e = .outOfRange v ∧ ∃ n, v.Denotes n ∧ ¬t.Takes n := by
  rw [read_eq] at h
  have herror : v.asIntegerIn t.least t.greatest = .error e := by
    cases hread : v.asIntegerIn t.least t.greatest with
    | error e' =>
      rw [hread] at h
      exact congrArg Except.error (Except.error.inj h)
    | ok k =>
      rw [hread] at h
      cases h
  rcases asIntegerIn_eq_error_iff.1 herror with hrefused | ⟨rfl, k, hk, hrange⟩
  · exact .inl hrefused
  · exact .inr ⟨rfl, k.toInt, (asInteger_eq_ok_iff hv).1 hk, hrange⟩

/-- No decimal text has a NUL byte. -/
theorem upToNul_intText (n : Int) : Bytes.upToNul (intText n) = intText n := by
  refine List.takeWhile_eq_self_iff.2 fun b hb => ?_
  rcases mem_intText hb with rfl | hdigit
  · rfl
  · rw [bne_iff_ne]
    rintro rfl
    exact absurd hdigit (by decide)

/-- The text of an integer denotes it. -/
theorem denotes_str (k : Int64) : Denotes (.text (Value.integer k).str) k.toInt := by
  refine .numeral ?_ (fits64_toInt k)
  rw [str, upToNul_intText]
  exact isNumeral_intText k.toInt

/-- **Integers are exact or refused.** A value that is no real converts to the integer that it
denotes. A field of an integer type gets that integer exactly when it lies in the range of the type,
and a range of all 64 bits excludes nothing. Every refusal is an invalid argument: the value denotes
no integer, or the field is too small for it. And the text of an integer converts back to it. -/
theorem integers_exact (hv : v.family ≠ .real) :
    (∀ k, v.asInteger = .ok k ↔ v.Denotes k.toInt) ∧
    (∀ (t : IntegerType) (n : Int),
      (∃ x, t.field.read v = .ok x ∧ t.number x = n) ↔ v.Denotes n ∧ t.Takes n) ∧
    v.asIntegerIn IntegerType.int64.least IntegerType.int64.greatest = v.asInteger ∧
    (∀ e, v.asInteger = .error e → e.kind = .invalidArgument ∧ ∀ n, ¬v.Denotes n) ∧
    (∀ (t : IntegerType) (e : ConversionError), t.field.read v = .error e →
      e.kind = .invalidArgument ∧
        (v.asInteger = .error e ∨ e = .outOfRange v ∧ ∃ n, v.Denotes n ∧ ¬t.Takes n)) ∧
    ∀ k : Int64, (Value.text (Value.integer k).str).asInteger = .ok k := by
  refine ⟨fun k => asInteger_eq_ok_iff hv, fun t n => exists_read_iff hv t, asIntegerIn_int64 v,
    fun e he => ⟨rfl, fun n hn => ?_⟩, fun t e he => ⟨rfl, refusal_of_read hv he⟩, fun k => ?_⟩
  · obtain ⟨k, rfl⟩ := hn.exists_int64
    exact nomatch he.symm.trans ((asInteger_eq_ok_iff hv).2 hn)
  · exact (asInteger_eq_ok_iff (v := .text _) (fun h => nomatch h)).2 (denotes_str k)

/-- A text with white space, a sign, a zero in front and a NUL byte. -/
def paddedNumber : Value := .text (ascii " -042" ++ [0, 120])

/-- It is read up to its NUL byte, and a field of unsigned integers is too small for it. -/
theorem integers_exact_paddedNumber :
    paddedNumber.family ≠ .real ∧ paddedNumber.Denotes (-42) ∧
    paddedNumber.asInteger = .ok (-42) ∧
    (∃ x, FieldType.int32.read paddedNumber = .ok x ∧ x.toInt = -42) ∧
    ∃ e, FieldType.uint32.read paddedNumber = .error e ∧ e.kind = .invalidArgument ∧
      e = .outOfRange paddedNumber := by
  have hfamily : paddedNumber.family ≠ .real := by decide
  have hdenotes : paddedNumber.Denotes (-42) :=
    .numeral (readWhole?_eq_some_iff.1 (by decide)) (by decide)
  obtain ⟨hinteger, hread, -, -, hrefusal, -⟩ := integers_exact hfamily
  have hrefused : FieldType.uint32.read paddedNumber = .error (.outOfRange paddedNumber) := rfl
  have hint32 := (hread .int32 (-42)).2 ⟨hdenotes, by decide, by decide⟩
  exact ⟨hfamily, hdenotes, (hinteger (-42)).2 hdenotes, hint32, _, hrefused,
    (hrefusal .uint32 _ hrefused).1, rfl⟩

end Value

end SqlPlan
