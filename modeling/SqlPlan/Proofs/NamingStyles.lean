import SqlPlan.Proofs.StoredRows

/-!
# Two styles of names

A name is in capitals style when it has no underscore and does not begin with a small letter, and in
underscore style when it has no capital, does not begin with an underscore and has a small letter
behind each one. On these names the two translations undo each other (`pascalCase_snakeCase` and
`snakeCase_pascalCase`), and each leads from one style to the other.

So properties in capitals style that have no columns of their own never share one
(`Naming.columnFor_injective`). `Naming.styles_inverse` is the main statement.
-/

namespace SqlPlan

/-! ## Letters -/

namespace Byte

variable {b : UInt8}

theorem isUpper_iff : isUpper b = true ↔ 65 ≤ b.toNat ∧ b.toNat ≤ 90 := by
  simp [isUpper, UInt8.le_iff_toNat_le]

theorem isLower_iff : isLower b = true ↔ 97 ≤ b.toNat ∧ b.toNat ≤ 122 := by
  simp [isLower, UInt8.le_iff_toNat_le]

theorem isLower_toLower (h : isUpper b = true) : isLower (toLower b) = true := by
  have hb := isUpper_iff.1 h
  have h32 : (32 : UInt8).toNat = 32 := rfl
  have hsum : (b + 32).toNat = b.toNat + 32 := by
    rw [UInt8.toNat_add, h32]
    omega
  rw [toLower, if_pos h, isLower_iff, hsum]
  omega

theorem isUpper_toUpper (h : isLower b = true) : isUpper (toUpper b) = true := by
  have hb := isLower_iff.1 h
  have h32 : (32 : UInt8).toNat = 32 := rfl
  have hle : (32 : UInt8) ≤ b := UInt8.le_iff_toNat_le.2 (by omega)
  rw [toUpper, if_pos h, isUpper_iff, UInt8.toNat_sub_of_le _ _ hle, h32]
  omega

/-- Going down and up again changes small letters only. -/
theorem toUpper_toLower (h : isLower b = false) : toUpper (toLower b) = b := by
  cases hupper : isUpper b with
  | true =>
    rw [toUpper, if_pos (isLower_toLower hupper), toLower, if_pos hupper, UInt8.add_sub_cancel]
  | false => rw [toLower, hupper, if_neg Bool.false_ne_true, toUpper, h, if_neg Bool.false_ne_true]

/-- Going up and down again changes capitals only. -/
theorem toLower_toUpper (h : isUpper b = false) : toLower (toUpper b) = b := by
  cases hlower : isLower b with
  | true =>
    rw [toLower, if_pos (isUpper_toUpper hlower), toUpper, if_pos hlower, UInt8.sub_add_cancel]
  | false => rw [toUpper, hlower, if_neg Bool.false_ne_true, toLower, h, if_neg Bool.false_ne_true]

theorem ne_underscore_of_isLower (h : isLower b = true) : b ≠ underscore := by
  rintro rfl
  exact absurd h (by decide)

/-- No byte is a small letter once it is put up. -/
theorem isLower_toUpper (b : UInt8) : isLower (toUpper b) = false := by
  rw [toUpper, isLower, isLower]
  grind

theorem isUpper_toLower (b : UInt8) : isUpper (toLower b) = false := by
  rw [toLower, isUpper, isUpper]
  grind

/-- No other byte becomes an underscore when it is put up. -/
theorem toUpper_ne_underscore (h : b ≠ underscore) : toUpper b ≠ underscore := by
  rw [toUpper, isLower]
  grind

theorem toLower_ne_underscore (h : b ≠ underscore) : toLower b ≠ underscore := by
  rw [toLower, isUpper]
  grind

theorem isLower_eq_false_of_isUpper (h : isUpper b = true) : isLower b = false := by
  have hb := isUpper_iff.1 h
  rw [Bool.eq_false_iff, Ne, isLower_iff]
  omega

end Byte

open Byte

variable {s t p q : Bytes} {b : UInt8} {up : Bool}

/-! ## The styles -/

/-- A name **in capitals style**. -/
structure InCapitals (s : Bytes) : Prop where
  /-- no underscore -/
  joined : underscore ∉ s
  /-- no small letter at the beginning -/
  begins : ∀ b ∈ s.head?, isLower b = false

/-- Behind each underscore there is a small letter. -/
def HasWords (t : Bytes) : Prop :=
  ∀ before after, t = before ++ underscore :: after → ∃ b ∈ after.head?, isLower b = true

/-- A name **in underscore style**. -/
structure InUnderscores (t : Bytes) : Prop where
  /-- no underscore at the beginning -/
  begins : t.head? ≠ some underscore
  /-- no capital -/
  small : ∀ b ∈ t, isUpper b = false
  /-- a word behind each underscore -/
  words : HasWords t

theorem hasWords_nil : HasWords [] := fun _ _ ht =>
  absurd ht.symm (List.append_ne_nil_of_right_ne_nil _ (List.cons_ne_nil _ _))

theorem HasWords.tail (h : HasWords (b :: t)) : HasWords t := fun before after ht =>
  h (b :: before) after (congrArg (b :: ·) ht)

/-- Another byte in front is no underscore to ask about. -/
theorem HasWords.cons (hb : b ≠ underscore) (h : HasWords t) : HasWords (b :: t) := by
  intro before after ht
  cases before with
  | nil => exact absurd (List.cons.inj ht).1 hb
  | cons c before => exact h before after (List.cons.inj ht).2

/-- A word in front has an underscore and its small letter. -/
theorem HasWords.word (hb : isLower b = true) (h : HasWords t) :
    HasWords (underscore :: b :: t) := by
  intro before after ht
  cases before with
  | nil =>
    obtain rfl := (List.cons.inj ht).2
    exact ⟨b, rfl, hb⟩
  | cons c before =>
    exact h.cons (ne_underscore_of_isLower hb) before after (List.cons.inj ht).2

/-- The underscore style of what follows the first letter of a name. -/
def snakeRest (s : Bytes) : Bytes :=
  s.flatMap fun c => if isUpper c then [underscore, toLower c] else [c]

/-- The first letter gets no underscore in front. -/
theorem snakeCase_cons (b : UInt8) (s : Bytes) : snakeCase (b :: s) = toLower b :: snakeRest s :=
  rfl

/-- A capital further on begins a word. -/
theorem snakeRest_cons_of_isUpper (h : isUpper b = true) :
    snakeRest (b :: s) = underscore :: toLower b :: snakeRest s := by
  rw [snakeRest, List.flatMap_cons, if_pos h]
  rfl

theorem snakeRest_cons_of_not_isUpper (h : isUpper b = false) :
    snakeRest (b :: s) = b :: snakeRest s := by
  rw [snakeRest, List.flatMap_cons, if_neg (Bool.eq_false_iff.1 h)]
  rfl

/-- An underscore is left out, and the next byte is put up. -/
theorem pascalFrom_underscore : pascalFrom up (underscore :: s) = pascalFrom true s :=
  if_pos rfl

/-- Any other byte is put up if it follows an underscore, and copied if not. -/
theorem pascalFrom_cons (h : b ≠ underscore) :
    pascalFrom up (b :: s) = (if up then toUpper b else b) :: pascalFrom false s :=
  if_neg h

/-! ## From capitals and back -/

/-- Capitals after the first letter come back. -/
theorem pascalFrom_snakeRest (h : underscore ∉ s) : pascalFrom false (snakeRest s) = s := by
  induction s with
  | nil => rfl
  | cons b s ih =>
    obtain ⟨hb, hs⟩ := List.ne_and_not_mem_of_not_mem_cons h
    cases hupper : isUpper b with
    | true =>
      have hlower := isLower_eq_false_of_isUpper hupper
      rw [snakeRest_cons_of_isUpper hupper, pascalFrom_underscore,
        pascalFrom_cons (toLower_ne_underscore (Ne.symm hb)), if_pos rfl, toUpper_toLower hlower,
        ih hs]
    | false =>
      rw [snakeRest_cons_of_not_isUpper hupper, pascalFrom_cons (Ne.symm hb),
        if_neg Bool.false_ne_true, ih hs]

/-- **A name in capitals style comes back from underscore style.** -/
theorem pascalCase_snakeCase (h : InCapitals s) : pascalCase (snakeCase s) = s := by
  cases s with
  | nil => rfl
  | cons b s =>
    obtain ⟨hb, hs⟩ := List.ne_and_not_mem_of_not_mem_cons h.joined
    rw [snakeCase_cons, pascalCase, pascalFrom_cons (toLower_ne_underscore (Ne.symm hb)),
      if_pos rfl, toUpper_toLower (h.begins b rfl), pascalFrom_snakeRest hs]

/-- No capital is left in underscore style. -/
theorem isUpper_of_mem_snakeRest (h : b ∈ snakeRest s) : isUpper b = false := by
  obtain ⟨c, -, hb⟩ := List.mem_flatMap.1 h
  split at hb
  · rcases List.mem_cons.1 hb with rfl | hb
    · rfl
    · rw [List.mem_singleton.1 hb]
      exact isUpper_toLower c
  · rename_i hc
    rw [List.mem_singleton.1 hb]
    exact Bool.eq_false_iff.2 hc

/-- Each underscore comes from a capital, whose small letter follows it. -/
theorem hasWords_snakeRest (h : underscore ∉ s) : HasWords (snakeRest s) := by
  induction s with
  | nil => exact hasWords_nil
  | cons b s ih =>
    obtain ⟨hb, hs⟩ := List.ne_and_not_mem_of_not_mem_cons h
    cases hupper : isUpper b with
    | true =>
      rw [snakeRest_cons_of_isUpper hupper]
      exact (ih hs).word (isLower_toLower hupper)
    | false =>
      rw [snakeRest_cons_of_not_isUpper hupper]
      exact (ih hs).cons (Ne.symm hb)

/-- The underscore style of a name in capitals style is one. -/
theorem inUnderscores_snakeCase (h : InCapitals s) : InUnderscores (snakeCase s) := by
  cases s with
  | nil => exact ⟨nofun, List.forall_mem_nil _, hasWords_nil⟩
  | cons b s =>
    obtain ⟨hb, hs⟩ := List.ne_and_not_mem_of_not_mem_cons h.joined
    have hfirst := toLower_ne_underscore (Ne.symm hb)
    rw [snakeCase_cons]
    constructor
    case begins => exact fun hhead => hfirst (Option.some.inj hhead)
    case small =>
      exact List.forall_mem_cons.2 ⟨isUpper_toLower b, fun c hc => isUpper_of_mem_snakeRest hc⟩
    case words => exact (hasWords_snakeRest hs).cons hfirst

/-! ## From underscores and back -/

/-- **Words come back**, and so does the underscore in front, if a word has just begun. -/
theorem snakeRest_pascalFrom (up : Bool) (hsmall : ∀ b ∈ t, isUpper b = false) (hwords : HasWords t)
    (hup : up = true → ∃ b ∈ t.head?, isLower b = true) :
    snakeRest (pascalFrom up t) = if up then underscore :: t else t := by
  induction t generalizing up with
  | nil =>
    cases up with
    | true => exact nomatch (hup rfl).choose_spec.1
    | false => rfl
  | cons b t ih =>
    obtain ⟨hb, ht⟩ := List.forall_mem_cons.1 hsmall
    -- an underscore is dropped and remembered, and comes back with the capital of the next letter
    by_cases hunderscore : b = underscore
    · subst hunderscore
      cases up with
      | true =>
        obtain ⟨c, hc, hlower⟩ := hup rfl
        obtain rfl := Option.some.inj hc
        exact absurd rfl (ne_underscore_of_isLower hlower)
      | false =>
        rw [pascalFrom_underscore, ih true ht hwords.tail fun _ => hwords [] t rfl]
        rfl
    · rw [pascalFrom_cons hunderscore]
      have hrest := ih false ht hwords.tail nofun
      cases up with
      | true =>
        obtain ⟨c, hc, hlower⟩ := hup rfl
        obtain rfl := Option.some.inj hc
        rw [if_pos rfl, snakeRest_cons_of_isUpper (isUpper_toUpper hlower), hrest,
          toLower_toUpper hb]
        rfl
      | false =>
        rw [if_neg Bool.false_ne_true, snakeRest_cons_of_not_isUpper hb, hrest]
        rfl

/-- **A name in underscore style comes back from capitals style.** -/
theorem snakeCase_pascalCase (h : InUnderscores t) : snakeCase (pascalCase t) = t := by
  cases t with
  | nil => rfl
  | cons b t =>
    have hb : b ≠ underscore := fun hb => h.begins (congrArg some hb)
    obtain ⟨hupper, hsmall⟩ := List.forall_mem_cons.1 h.small
    have hrest := snakeRest_pascalFrom false hsmall h.words.tail nofun
    rw [pascalCase, pascalFrom_cons hb, if_pos rfl, snakeCase_cons, toLower_toUpper hupper, hrest]
    rfl

/-- All underscores are left out. -/
theorem underscore_not_mem_pascalFrom (t : Bytes) : underscore ∉ pascalFrom up t := by
  induction t generalizing up with
  | nil => exact List.not_mem_nil
  | cons b t ih =>
    by_cases hb : b = underscore
    · rw [hb, pascalFrom_underscore]
      exact ih
    · rw [pascalFrom_cons hb, List.mem_cons, not_or]
      refine ⟨?_, ih⟩
      split
      · exact Ne.symm (toUpper_ne_underscore hb)
      · exact Ne.symm hb

/-- What is put into capitals style is in capitals style. -/
theorem inCapitals_pascalCase (t : Bytes) : InCapitals (pascalCase t) := by
  refine ⟨underscore_not_mem_pascalFrom t, ?_⟩
  rw [pascalCase]
  induction t with
  | nil => exact nofun
  | cons b t ih =>
    by_cases hb : b = underscore
    · rwa [hb, pascalFrom_underscore]
    · rw [pascalFrom_cons hb, if_pos rfl]
      intro c hc
      rw [← Option.some.inj hc]
      exact isLower_toUpper b

/-! ## Columns -/

namespace Naming

variable {n : Naming}

/-- A property without a column of its own has the underscore style of its name. -/
theorem columnFor_of_find? (h : n.overrides.find? p = none) : n.columnFor p = snakeCase p := by
  rw [columnFor, h]
  rfl

/-- Properties in capitals style without columns of their own do not share a column. -/
theorem columnFor_injective (hp : InCapitals p) (hq : InCapitals q)
    (hpn : n.overrides.find? p = none) (hqn : n.overrides.find? q = none)
    (h : n.columnFor p = n.columnFor q) : p = q := by
  rw [columnFor_of_find? hpn, columnFor_of_find? hqn] at h
  rw [← pascalCase_snakeCase hp, h, pascalCase_snakeCase hq]

/-- **The styles are inverse to each other.** A name in capitals style goes to one in underscore
style and comes back, and the other way round. So two properties in capitals style without columns
of their own have different columns, and in a row that has the column of one its cell is found,
whatever else is in the row. -/
theorem styles_inverse (n : Naming) :
    (∀ s, InCapitals s → InUnderscores (snakeCase s) ∧ pascalCase (snakeCase s) = s) ∧
    (∀ t, InUnderscores t → InCapitals (pascalCase t) ∧ snakeCase (pascalCase t) = t) ∧
    (∀ p q, InCapitals p → InCapitals q → n.overrides.find? p = none →
      n.overrides.find? q = none → p ≠ q → n.columnFor p ≠ n.columnFor q) ∧
    ∀ p (row : Row) v, InCapitals p → n.overrides.find? p = none →
      row.find? (snakeCase p) = some v →
      n.columnFor p = snakeCase p ∧ row.findCell (n.columnFor p) p = some v := by
  refine ⟨fun s hs => ⟨inUnderscores_snakeCase hs, pascalCase_snakeCase hs⟩,
    fun t ht => ⟨inCapitals_pascalCase t, snakeCase_pascalCase ht⟩,
    fun p q hp hq hpn hqn hne h => hne (columnFor_injective hp hq hpn hqn h),
    fun p row v _ hpn hcell => ?_⟩
  have hcolumn := columnFor_of_find? hpn
  exact ⟨hcolumn, Row.findCell_of_find? (hcolumn ▸ hcell)⟩

/-- A naming with a column of its own for names. -/
def titled : Naming := ⟨.ofList [(ascii "Name", ascii "title")]⟩

/-- A row with the column of a user and two keys that have its letters. -/
def userRow : Row :=
  .ofList [(ascii "USERID2", .null), (ascii "user_i_d2", .integer 7), (ascii "userid2", .integer 8)]

theorem inCapitals_of_head {b : UInt8} {s : Bytes} (hjoined : underscore ∉ b :: s)
    (hbegins : isLower b = false) : InCapitals (b :: s) :=
  ⟨hjoined, fun _ hc => Option.some.inj hc ▸ hbegins⟩

/-- Two properties that differ in one capital, and a column that begins with a digit. -/
theorem styles_inverse_userIds :
    InCapitals (ascii "UserID2") ∧ InCapitals (ascii "UserId2") ∧
    InUnderscores (ascii "2nd_street") ∧
    pascalCase (snakeCase (ascii "UserID2")) = ascii "UserID2" ∧
    snakeCase (pascalCase (ascii "2nd_street")) = ascii "2nd_street" ∧
    titled.columnFor (ascii "UserID2") ≠ titled.columnFor (ascii "UserId2") ∧
    userRow.findCell (titled.columnFor (ascii "UserID2")) (ascii "UserID2") =
      some (.integer 7) := by
  have hp : InCapitals (ascii "UserID2") := inCapitals_of_head (by decide) (by decide)
  have hq : InCapitals (ascii "UserId2") := inCapitals_of_head (by decide) (by decide)
  have ht : InUnderscores (ascii "2nd_street") :=
    inUnderscores_snakeCase (inCapitals_of_head (b := 50) (s := ascii "ndStreet") (by decide)
      (by decide))
  obtain ⟨hforth, hback, hcolumns, hcell⟩ := styles_inverse titled
  exact ⟨hp, hq, ht, (hforth _ hp).2, (hback _ ht).2,
    hcolumns _ _ hp hq (by decide) (by decide) (by decide),
    (hcell _ userRow _ hp (by decide) (by decide)).2⟩

end Naming

end SqlPlan
