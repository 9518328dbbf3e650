import SqlPlan.Proofs.Decimal
import SqlPlan.Proofs.Emission
import SqlPlan.Proofs.Reachable

/-!
# When two statements share a fingerprint

A fingerprint writes the table, the result type, the SQL and the typed keys of the parameters one
after the other, with a colon or a bar between neighbours. Nothing in it is escaped and no length
is given, so a text parameter may spell the bar and the key of a further parameter. This is
`Value.Absorbs`; the same with a colon and the SQL is the second case of `Statement.Absorbs`.

`Statement.fingerprint_determines_iff` says that there is no other way: without reals in their
parameters, a fingerprint tells two statements apart exactly when neither absorbs the other.
`Statement.fingerprint_not_determining` has two plans that are confused, and
`Statement.fingerprint_injective` says which statements never are: those whose SQL has no colon and
whose texts have no bar.
-/

namespace SqlPlan

/-! ## Keys in a row -/

namespace Value

/-- The value is no real, so that its key is exact. -/
def IsExact (v : Value) : Prop := v.family ≠ .real

instance (v : Value) : Decidable v.IsExact := inferInstanceAs (Decidable (_ ≠ _))

/-- The keys of some values, with a bar between neighbours. -/
def keys (vs : List Value) : Bytes := Bytes.joined (ascii "|") (vs.map key)

/-- The keys of the values after a first one, with the bar that goes before them. -/
def furtherKeys : List Value → Bytes
  | [] => []
  | v :: vs => ascii "|" ++ keys (v :: vs)

/-- The first key has no separator in front, and all further ones do. -/
theorem keys_cons (v : Value) (vs : List Value) : keys (v :: vs) = v.key ++ furtherKeys vs := by
  cases vs with
  | nil => simp [keys, furtherKeys, Bytes.joined]
  | cons w ws => simp [keys, furtherKeys, Bytes.joined, List.intersperse_cons_cons]

/-- What follows a key begins with a bar. -/
theorem furtherKeys_eq_cons {vs : List Value} {b : UInt8} {s : Bytes}
    (h : furtherKeys vs = b :: s) : b = 124 ∧ vs ≠ [] ∧ keys vs = s := by
  cases vs with
  | nil => cases h
  | cons v vs =>
    obtain ⟨hb, hs⟩ := List.cons.inj h
    exact ⟨hb.symm, List.cons_ne_nil _ _, hs⟩

theorem keys_ne_nil (v : Value) (vs : List Value) : keys (v :: vs) ≠ [] := by
  rw [keys_cons]
  cases v <;> exact List.cons_ne_nil _ _

/-- Only the empty list of values has nothing to write. -/
theorem furtherKeys_injective {vs ws : List Value} (h : furtherKeys vs = furtherKeys ws) :
    keys vs = keys ws := by
  cases vs with
  | nil =>
    cases ws with
    | nil => rfl
    | cons w ws => cases h
  | cons v vs =>
    cases ws with
    | nil => cases h
    | cons w ws => exact List.append_cancel_left h

/-- The text of one list of values takes in what are further values of the other: where the two
first differ there is a text in both, and the longer text goes on with a bar and the beginning of
the keys that follow the shorter one. -/
def Absorbs (vs ws : List Value) : Prop :=
  ∃ (common : List Value) (s t : Bytes) (vs' ws' : List Value),
    vs = common ++ .text (s ++ ascii "|" ++ t) :: vs' ∧ ws = common ++ .text s :: ws' ∧
    ws' ≠ [] ∧ keys ws' = t ++ furtherKeys vs'

theorem Absorbs.cons {vs ws : List Value} (h : Absorbs vs ws) (v : Value) :
    Absorbs (v :: vs) (v :: ws) := by
  obtain ⟨common, s, t, vs', ws', rfl, rfl, hne, hk⟩ := h
  exact ⟨v :: common, s, t, vs', ws', rfl, rfl, hne, hk⟩

/-- At a value in it, a list of keys falls into those before it, each with its separator, the key of
the value, and the further ones. -/
theorem keys_append_cons (common : List Value) (v : Value) (vs : List Value) :
    keys (common ++ v :: vs) =
      (common.flatMap fun w => w.key ++ ascii "|") ++ v.key ++ furtherKeys vs := by
  induction common with
  | nil => exact keys_cons v vs
  | cons w common ih =>
    rw [List.cons_append, keys_cons, List.flatMap_cons]
    have hf : furtherKeys (common ++ v :: vs) = ascii "|" ++ keys (common ++ v :: vs) := by
      cases common <;> rfl
    rw [hf, ih]
    simp only [List.append_assoc]

/-- An absorbing list writes what the absorbed one writes. -/
theorem Absorbs.keys_eq {vs ws : List Value} (h : Absorbs vs ws) : keys vs = keys ws := by
  obtain ⟨common, s, t, vs', ws', rfl, rfl, hne, hk⟩ := h
  obtain ⟨w, ws', rfl⟩ := List.exists_cons_of_ne_nil hne
  rw [keys_append_cons, keys_append_cons, furtherKeys, hk]
  simp only [key, List.append_assoc]

/-! ## Telling the first key -/

/-- The decimal text before a bar, or before the end, can be told from what follows. -/
theorem intText_append_furtherKeys {m n : Int} {vs ws : List Value}
    (h : Decimal.intText m ++ furtherKeys vs = Decimal.intText n ++ furtherKeys ws) :
    m = n ∧ furtherKeys vs = furtherKeys ws := by
  have hstop : ∀ (k : Int) (us : List Value),
      (Decimal.intText k ++ furtherKeys us).takeWhile (· != 124) = Decimal.intText k := by
    intro k us
    -- neither a sign nor a digit is a bar, so the number ends at the first one
    have hdigits : ∀ b ∈ Decimal.intText k, (b != 124) = true := by
      intro b hb
      rcases Decimal.mem_intText hb with rfl | hd
      · decide
      · rw [bne_iff_ne]
        rintro rfl
        exact absurd hd (by decide)
    rw [List.takeWhile_append_of_pos hdigits]
    cases us with
    | nil => simp [furtherKeys]
    | cons u us => simp [furtherKeys, ascii]
  have htext : Decimal.intText m = Decimal.intText n := by
    rw [← hstop m vs, h, hstop n ws]
  rw [htext] at h
  exact ⟨Decimal.intText_injective htext, List.append_cancel_left h⟩

/-- A text before a bar cannot be told from what follows: it may be the beginning of a longer
one. -/
theorem text_append_furtherKeys {s s' : Bytes} {vs ws : List Value}
    (h : s ++ furtherKeys vs = s' ++ furtherKeys ws) :
    (s = s' ∧ furtherKeys vs = furtherKeys ws) ∨
    (∃ t, s = s' ++ ascii "|" ++ t ∧ ws ≠ [] ∧ keys ws = t ++ furtherKeys vs) ∨
    ∃ t, s' = s ++ ascii "|" ++ t ∧ vs ≠ [] ∧ keys vs = t ++ furtherKeys ws := by
  rcases List.append_eq_append_iff.1 h with ⟨t, hs, hf⟩ | ⟨t, hs, hf⟩
  · cases t with
    | nil => exact Or.inl ⟨by rw [hs, List.append_nil], hf⟩
    | cons b t =>
      obtain ⟨rfl, hne, hk⟩ := furtherKeys_eq_cons hf
      exact Or.inr (Or.inr ⟨t, by rw [hs, List.append_assoc]; rfl, hne, hk⟩)
  · cases t with
    | nil => exact Or.inl ⟨by rw [hs, List.append_nil], hf.symm⟩
    | cons b t =>
      obtain ⟨rfl, hne, hk⟩ := furtherKeys_eq_cons hf
      exact Or.inr (Or.inl ⟨t, by rw [hs, List.append_assoc]; rfl, hne, hk⟩)

/-- Two lists of values that begin with different keys write different texts, unless both begin
with a text. -/
theorem eq_or_text_of_key_append {v w : Value} {vs ws : List Value} (hv : v.IsExact)
    (hw : w.IsExact) (h : v.key ++ furtherKeys vs = w.key ++ furtherKeys ws) :
    (v = w ∧ furtherKeys vs = furtherKeys ws) ∨
    ∃ s s', v = .text s ∧ w = .text s' ∧ s ++ furtherKeys vs = s' ++ furtherKeys ws := by
  -- the keys of different kinds begin with different letters, and the digits of an integer end
  -- where the next key begins; only texts have no end of their own
  cases v with
  | real x => exact absurd rfl hv
  | null =>
    cases w with
    | real x => exact absurd rfl hw
    | null => exact Or.inl ⟨rfl, List.append_cancel_left h⟩
    | integer n => cases h
    | text s => cases h
  | integer m =>
    cases w with
    | real x => exact absurd rfl hw
    | null => cases h
    | integer n =>
      simp only [key, List.append_assoc] at h
      obtain ⟨hmn, hf⟩ := intText_append_furtherKeys (List.append_cancel_left h)
      exact Or.inl ⟨by rw [Int64.toInt_inj.1 hmn], hf⟩
    | text s => cases h
  | text s =>
    cases w with
    | real x => exact absurd rfl hw
    | null => cases h
    | integer n => cases h
    | text s' =>
      simp only [key, List.append_assoc] at h
      exact Or.inr ⟨s, s', rfl, rfl, List.append_cancel_left h⟩

/-- **Lists of exact values write one text only if they are equal or one absorbs the other.** -/
theorem eq_or_absorbs_of_keys_eq {vs ws : List Value} (hvs : ∀ v ∈ vs, v.IsExact)
    (hws : ∀ w ∈ ws, w.IsExact) (h : keys vs = keys ws) :
    vs = ws ∨ Absorbs vs ws ∨ Absorbs ws vs := by
  induction vs generalizing ws with
  | nil =>
    cases ws with
    | nil => exact Or.inl rfl
    | cons w ws => exact absurd h.symm (keys_ne_nil w ws)
  | cons v vs ih =>
    cases ws with
    | nil => exact absurd h (keys_ne_nil v vs)
    | cons w ws =>
      rw [keys_cons, keys_cons] at h
      have hv := hvs v (List.mem_cons_self ..)
      have hw := hws w (List.mem_cons_self ..)
      rcases eq_or_text_of_key_append hv hw h with ⟨rfl, hf⟩ | ⟨s, s', rfl, rfl, hs⟩
      · rcases ih (fun u hu => hvs u (List.mem_cons_of_mem _ hu))
          (fun u hu => hws u (List.mem_cons_of_mem _ hu)) (furtherKeys_injective hf)
          with rfl | ha | ha
        · exact Or.inl rfl
        · exact Or.inr (Or.inl (ha.cons v))
        · exact Or.inr (Or.inr (ha.cons v))
      · rcases text_append_furtherKeys hs with ⟨rfl, hf⟩ | ⟨t, rfl, hne, hk⟩ | ⟨t, rfl, hne, hk⟩
        · -- the same text in both, so the lists part later
          rcases ih (fun u hu => hvs u (List.mem_cons_of_mem _ hu))
            (fun u hu => hws u (List.mem_cons_of_mem _ hu)) (furtherKeys_injective hf)
            with rfl | ha | ha
          · exact Or.inl rfl
          · exact Or.inr (Or.inl (ha.cons _))
          · exact Or.inr (Or.inr (ha.cons _))
        -- one text is longer, and goes on with what are further keys in the other list
        · exact Or.inr (Or.inl ⟨[], s', t, vs, ws, rfl, rfl, hne, hk⟩)
        · exact Or.inr (Or.inr ⟨[], s, t, ws, vs, rfl, rfl, hne, hk⟩)

end Value

/-! ## Fingerprints -/

namespace Statement

/-- The first statement has a text that takes in what the second one has beside that text: further
parameters, or the end of its SQL and its parameters. -/
def Absorbs (st st' : Statement) : Prop :=
  (st.sql = st'.sql ∧ Value.Absorbs st.params st'.params) ∨
  ∃ t, st'.sql = st.sql ++ ascii ":" ++ t ∧
    Value.keys st.params = t ++ ascii ":" ++ Value.keys st'.params

/-- The part of a fingerprint that tells statements on one table apart. -/
theorem fingerprint_eq_append (st : Statement) (table resultType : Bytes) :
    st.fingerprint table resultType =
      (table ++ ascii ":" ++ resultType ++ ascii ":") ++
        (st.sql ++ (ascii ":" ++ Value.keys st.params)) := by
  rw [fingerprint, Value.keys]
  simp only [List.append_assoc]

/-- A statement that absorbs another has its fingerprint: the text of a parameter stands for the
keys it absorbs. -/
theorem Absorbs.fingerprint_eq {st st' : Statement} (h : st.Absorbs st')
    (table resultType : Bytes) :
    st.fingerprint table resultType = st'.fingerprint table resultType := by
  rw [fingerprint_eq_append, fingerprint_eq_append]
  rcases h with ⟨hsql, hp⟩ | ⟨t, hsql, hk⟩
  · rw [hsql, hp.keys_eq]
  · rw [hsql, hk]
    simp only [List.append_assoc]

/-- No statement absorbs itself: the text that takes in is the longer one. -/
theorem Absorbs.ne {st st' : Statement} (h : st.Absorbs st') : st ≠ st' := by
  rintro rfl
  rcases h with ⟨-, common, s, t, vs', ws', hvs, hws, -, -⟩ | ⟨t, hsql, -⟩
  · have heads := List.append_cancel_left (hvs.symm.trans hws)
    have hs : s ++ ascii "|" ++ t = s := Value.text.inj (List.cons.inj heads).1
    have hlen := congrArg List.length hs
    have hbar : (ascii "|").length = 1 := rfl
    simp only [List.length_append] at hlen
    omega
  · have hlen := congrArg List.length hsql
    have hcolon : (ascii ":").length = 1 := rfl
    simp only [List.length_append] at hlen
    omega

/-- Two statements that read alike behind their common SQL are equal or one absorbs the other. -/
theorem eq_or_absorbs_of_sql_eq {st st' : Statement} (hst : ∀ v ∈ st.params, v.IsExact)
    (hst' : ∀ v ∈ st'.params, v.IsExact) (hsql : st.sql = st'.sql)
    (hk : Value.keys st.params = Value.keys st'.params) :
    st = st' ∨ st.Absorbs st' ∨ st'.Absorbs st := by
  rcases Value.eq_or_absorbs_of_keys_eq hst hst' hk with hp | hp | hp
  · exact Or.inl (by rw [Statement.mk.injEq]; exact ⟨hsql, hp⟩)
  · exact Or.inr (Or.inl (Or.inl ⟨hsql, hp⟩))
  · exact Or.inr (Or.inr (Or.inl ⟨hsql.symm, hp⟩))

/-- The same where the SQL of the second goes on after that of the first: what it goes on with is
then in the keys of the first. -/
theorem eq_or_absorbs_of_sql_append {st st' : Statement} {s : Bytes}
    (hst : ∀ v ∈ st.params, v.IsExact) (hst' : ∀ v ∈ st'.params, v.IsExact)
    (hsql : st'.sql = st.sql ++ s)
    (h : ascii ":" ++ Value.keys st.params = s ++ (ascii ":" ++ Value.keys st'.params)) :
    st = st' ∨ st.Absorbs st' ∨ st'.Absorbs st := by
  cases s with
  | nil =>
    rw [List.append_nil] at hsql
    exact eq_or_absorbs_of_sql_eq hst hst' hsql.symm (List.append_cancel_left h)
  | cons b t =>
    obtain ⟨rfl, hk⟩ := List.cons.inj h
    refine Or.inr (Or.inl (Or.inr ⟨t, ?_, ?_⟩))
    · rw [hsql, List.append_assoc]
      rfl
    · rw [List.append_assoc]
      exact hk

/-- Only so can two statements with exact values share a fingerprint. -/
theorem eq_or_absorbs_of_fingerprint_eq {st st' : Statement} {table resultType : Bytes}
    (hst : ∀ v ∈ st.params, v.IsExact) (hst' : ∀ v ∈ st'.params, v.IsExact)
    (h : st.fingerprint table resultType = st'.fingerprint table resultType) :
    st = st' ∨ st.Absorbs st' ∨ st'.Absorbs st := by
  rw [fingerprint_eq_append, fingerprint_eq_append] at h
  -- the shorter SQL is the beginning of the longer
  rcases List.append_eq_append_iff.1 (List.append_cancel_left h) with ⟨s, hs, hk⟩ | ⟨s, hs, hk⟩
  · exact eq_or_absorbs_of_sql_append hst hst' hs hk
  · rcases eq_or_absorbs_of_sql_append hst' hst hs hk with heq | ha | ha
    · exact Or.inl heq.symm
    · exact Or.inr (Or.inr ha)
    · exact Or.inr (Or.inl ha)

/-- **When a fingerprint tells two statements apart.** For statements without reals it does exactly
when no text of one absorbs what the other has beside it: keys are joined by bars, and a bar within
a text looks like one between two keys. -/
theorem fingerprint_determines_iff (table resultType : Bytes) {st st' : Statement}
    (hst : ∀ v ∈ st.params, v.IsExact) (hst' : ∀ v ∈ st'.params, v.IsExact) :
    (st.fingerprint table resultType = st'.fingerprint table resultType →
      st.sql = st'.sql ∧ st.params = st'.params) ↔ ¬st.Absorbs st' ∧ ¬st'.Absorbs st := by
  constructor
  · intro h
    constructor
    · intro ha
      obtain ⟨hsql, hp⟩ := h (ha.fingerprint_eq table resultType)
      exact ha.ne (by rw [Statement.mk.injEq]; exact ⟨hsql, hp⟩)
    · intro ha
      obtain ⟨hsql, hp⟩ := h (ha.fingerprint_eq table resultType).symm
      exact ha.ne (by rw [Statement.mk.injEq]; exact ⟨hsql.symm, hp.symm⟩)
  · rintro ⟨hn, hn'⟩ h
    rcases eq_or_absorbs_of_fingerprint_eq hst hst' h with rfl | ha | ha
    · exact ⟨rfl, rfl⟩
    · exact absurd ha hn
    · exact absurd ha hn'

/-- Two texts that share a bar and a tag: the first list of parameters absorbs the second. -/
theorem fingerprint_determines_iff_two_texts :
    (∀ v ∈ [Value.text (ascii "a|t:b"), .text (ascii "c")], v.IsExact) ∧
    (∀ v ∈ [Value.text (ascii "a"), .text (ascii "b|t:c")], v.IsExact) ∧
    ((Statement.fingerprint ⟨ascii "SELECT ?, ?", [.text (ascii "a|t:b"), .text (ascii "c")]⟩
          (ascii "users") (ascii "User") =
        Statement.fingerprint ⟨ascii "SELECT ?, ?", [.text (ascii "a"), .text (ascii "b|t:c")]⟩
          (ascii "users") (ascii "User") →
        ascii "SELECT ?, ?" = ascii "SELECT ?, ?" ∧
        [Value.text (ascii "a|t:b"), .text (ascii "c")] =
          [.text (ascii "a"), .text (ascii "b|t:c")]) ↔
      ¬Statement.Absorbs ⟨ascii "SELECT ?, ?", [.text (ascii "a|t:b"), .text (ascii "c")]⟩
        ⟨ascii "SELECT ?, ?", [.text (ascii "a"), .text (ascii "b|t:c")]⟩ ∧
      ¬Statement.Absorbs ⟨ascii "SELECT ?, ?", [.text (ascii "a"), .text (ascii "b|t:c")]⟩
        ⟨ascii "SELECT ?, ?", [.text (ascii "a|t:b"), .text (ascii "c")]⟩) :=
  ⟨by decide, by decide,
    fingerprint_determines_iff (ascii "users") (ascii "User") (by decide) (by decide)⟩

/-! ### Two plans with one fingerprint -/

/-- A table of users with a name and a city. -/
def users : Catalog :=
  .single (ascii "users") [(ascii "Name", ascii "name"), (ascii "City", ascii "city")]

/-- The users of a name and a city. -/
def byNameAndCity (name city : Bytes) : Query :=
  { source := 0
    filters := [.compare .eq (.column 0 (ascii "Name")) (.literal (.text name)),
      .compare .eq (.column 0 (ascii "City")) (.literal (.text city))] }

theorem reachable_byNameAndCity (name city : Bytes) :
    (byNameAndCity name city).Reachable Set.univ := by
  have hname := Query.Reachable.filter (C := Set.univ) (Γ := users) (.source 0) (Set.mem_univ _)
    (p := .compare .eq (.column 0 (ascii "Name")) (.literal (.text name)))
    (fun r hr => absurd hr List.not_mem_nil) rfl
  exact hname.filter (Γ := users) (Set.mem_univ _)
    (p := .compare .eq (.column 0 (ascii "City")) (.literal (.text city)))
    (fun r hr => absurd hr List.not_mem_nil) rfl

/-- **Fingerprints do not tell all plans apart**: a name that ends in a bar and a tagged city is
taken for a shorter name with a longer city. -/
theorem fingerprint_not_determining :
    ¬∀ (table resultType : Bytes) (Γ : Catalog) (p p' : Plan) (st st' : Statement),
      p.Reachable Set.univ → p'.Reachable Set.univ →
      p.compile Γ = .ok st → p'.compile Γ = .ok st' →
      (∀ v ∈ st.params, v.IsExact) → (∀ v ∈ st'.params, v.IsExact) →
      st.fingerprint table resultType = st'.fingerprint table resultType →
      st.sql = st'.sql ∧ st.params = st'.params := by
  intro h
  have hsame := h (ascii "users") (ascii "User") users
    (.query (byNameAndCity (ascii "a|t:b") (ascii "c")))
    (.query (byNameAndCity (ascii "a") (ascii "b|t:c"))) _ _
    (.query (reachable_byNameAndCity _ _)) (.query (reachable_byNameAndCity _ _)) rfl rfl
    (by decide) (by decide) (by decide)
  exact absurd hsame.2 (by decide)

/-! ### Statements that are told apart -/

/-- A statement without a colon in its SQL and a bar in its texts absorbs no other such one. -/
theorem not_absorbs {st st' : Statement} (hsql' : (58 : UInt8) ∉ st'.sql)
    (htexts : ∀ s, .text s ∈ st.params → (124 : UInt8) ∉ s) : ¬st.Absorbs st' := by
  rintro (⟨-, common, s, t, vs', ws', hvs, -, -, -⟩ | ⟨t, hsql, -⟩)
  · refine htexts (s ++ ascii "|" ++ t) (hvs ▸ by simp) ?_
    simp [ascii]
  · refine hsql' (hsql ▸ ?_)
    simp [ascii]

/-- **Fingerprints tell statements apart** whose SQL has no colon and whose texts have no bar. -/
theorem fingerprint_injective {st st' : Statement} {table resultType : Bytes}
    (hst : ∀ v ∈ st.params, v.IsExact) (hst' : ∀ v ∈ st'.params, v.IsExact)
    (hsql : (58 : UInt8) ∉ st.sql) (hsql' : (58 : UInt8) ∉ st'.sql)
    (htexts : ∀ s, .text s ∈ st.params → (124 : UInt8) ∉ s)
    (htexts' : ∀ s, .text s ∈ st'.params → (124 : UInt8) ∉ s)
    (h : st.fingerprint table resultType = st'.fingerprint table resultType) : st = st' := by
  rcases eq_or_absorbs_of_fingerprint_eq hst hst' h with heq | ha | ha
  · exact heq
  · exact absurd ha (not_absorbs hsql' htexts)
  · exact absurd ha (not_absorbs hsql htexts')

end Statement

end SqlPlan
