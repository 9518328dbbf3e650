import SqlPlan.Proofs.Fingerprint

/-!
# Typed keys

A key is the letter of a family, a colon and the content of the value. No two families have one
letter, so a key tells the family, whatever the content looks like: a text that begins with a letter
and a colon of its own is still behind those of texts (`Value.key_eq_key_iff`). Within a family the
content tells the value, with one exception: the two zeros are the same real in two spellings, and
no NaN is the same as itself.

`Value.keys_separate` is the main statement. `Statement.fingerprint_replace_iff` carries it over to
statements that differ in one parameter.
-/

namespace SqlPlan

/-- The letter of a family in front of a key. -/
def Family.letter : Family → UInt8
  | .null => 110
  | .integer => 105
  | .real => 114
  | .text => 116

theorem Family.letter_injective {f g : Family} (h : f.letter = g.letter) : f = g := by
  revert h
  cases f <;> cases g <;> decide

namespace Value

variable {v w : Value}

/-- What stands behind the letter and the colon of a key. -/
def content : Value → Bytes
  | .null => []
  | .integer n => Decimal.intText n.toInt
  | .real x => Decimal.full x
  | .text s => s

theorem key_eq (v : Value) : v.key = v.family.letter :: 58 :: v.content := by
  cases v <;> rfl

/-- **A key tells the family and the content**, and nothing else. -/
theorem key_eq_key_iff : v.key = w.key ↔ v.family = w.family ∧ v.content = w.content := by
  rw [key_eq, key_eq, List.cons.injEq, List.cons.injEq]
  refine ⟨?_, ?_⟩
  · rintro ⟨hletter, -, hcontent⟩
    exact ⟨Family.letter_injective hletter, hcontent⟩
  · rintro ⟨hfamily, hcontent⟩
    exact ⟨congrArg Family.letter hfamily, rfl, hcontent⟩

/-- The content tells the exact values of one family. -/
theorem eq_of_content_eq (hv : v.IsExact) (hfamily : v.family = w.family)
    (hcontent : v.content = w.content) : v = w := by
  cases v with
  | null =>
    cases w with
    | null => rfl
    | integer | real | text => cases hfamily
  | integer m =>
    cases w with
    | integer n => rw [Int64.toInt_inj.1 (Decimal.intText_injective hcontent)]
    | null | real | text => cases hfamily
  | real x => exact absurd rfl hv
  | text s =>
    cases w with
    | text t => exact congrArg text hcontent
    | null | integer | real => cases hfamily

/-- Two exact values are the same in the data model when they are equal. -/
theorem same_iff_eq (hv : v.IsExact) : v.same w = true ↔ v = w := by
  cases v with
  | real x => exact absurd rfl hv
  | null | integer | text => cases w <;> simp [same]

theorem key_eq_key_iff_same (hv : v.IsExact) : v.key = w.key ↔ v.same w = true := by
  rw [same_iff_eq hv]
  refine ⟨fun h => ?_, congrArg key⟩
  obtain ⟨hfamily, hcontent⟩ := key_eq_key_iff.1 h
  exact eq_of_content_eq hv hfamily hcontent

theorem key_ne_of_family_ne (h : v.family ≠ w.family) : v.key ≠ w.key := fun hkey =>
  h (key_eq_key_iff.1 hkey).1

/-- **Typed keys separate values.** A value that is no real shares its key with exactly the values
that are the same in the data model, over all integers of 64 bits and all texts. So a text does not
share the key of an integer, not even of the one that it spells, nor that of NULL. -/
theorem keys_separate (hv : v.IsExact) (w : Value) :
    (v.key = w.key ↔ v.same w = true) ∧
    ∀ s n, (text s).key ≠ (integer n).key ∧ (text s).key ≠ null.key :=
  ⟨key_eq_key_iff_same hv, fun _ _ => ⟨key_ne_of_family_ne nofun, key_ne_of_family_ne nofun⟩⟩

/-- The least integer and a text that spells it. -/
theorem keys_separate_least :
    (integer Int64.minValue).IsExact ∧
    ((integer Int64.minValue).key = (text (ascii "-9223372036854775808")).key ↔
      (integer Int64.minValue).same (text (ascii "-9223372036854775808")) = true) ∧
    (text (ascii "i:-9223372036854775808")).key ≠ (integer Int64.minValue).key := by
  have hexact : (integer Int64.minValue).IsExact := by decide
  obtain ⟨hsame, htexts⟩ := keys_separate hexact (text (ascii "-9223372036854775808"))
  exact ⟨hexact, hsame, (htexts _ _).1⟩

/-- Reals need the exception: the two zeros are the same and have two keys, and a NaN is not the
same as itself. -/
example : (real 0.0).same (real (-0.0)) = true ∧ (real 0.0).key ≠ (real (-0.0)).key ∧
    (real (0.0 / 0.0)).same (real (0.0 / 0.0)) = false := by decide +kernel

end Value

/-- **Statements that differ in one parameter**, if in any, have one fingerprint exactly when the
parameters are the same in the data model. -/
theorem Statement.fingerprint_replace_iff {v : Value} (hv : v.IsExact) (w : Value)
    (sql table resultType : Bytes) (before after : List Value) :
    fingerprint ⟨sql, before ++ v :: after⟩ table resultType =
      fingerprint ⟨sql, before ++ w :: after⟩ table resultType ↔ v.same w = true := by
  rw [fingerprint_eq_append, fingerprint_eq_append, Value.keys_append_cons, Value.keys_append_cons,
    ← Value.key_eq_key_iff_same hv]
  simp only [List.append_cancel_left_eq, List.append_cancel_right_eq]

end SqlPlan
