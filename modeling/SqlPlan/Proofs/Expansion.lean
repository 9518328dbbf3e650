import SqlPlan.Proofs.Binding

/-!
# Literals in the place of placeholders

A text is `Plain` when each quote in it is closed and no question mark is outside quotes: a scanner
of placeholders that comes to it outside quotes leaves it outside quotes, and has counted nothing.
Literals are plain, whatever bytes their values have (`plain_literal`).

`Statement.expanded_replaces` is the main statement. A statement is plain texts with a placeholder
after each and some rest, and it is expanded to the same texts with a literal after each and the
same rest. So the literals end no quote of the statement and open none, and the placeholders that
are left are those of the rest.
-/

namespace SqlPlan

namespace Placeholder

variable {b q : UInt8} {s t rest body : Bytes} {v : Value} {vs : List Value}

/-! ## Plain texts -/

/-- A text is **plain**: it has bytes that are no quotes and no question marks, and stretches from a
quote to the next one of the same kind. -/
inductive Plain : Bytes → Prop where
  /-- the empty text -/
  | nil : Plain []
  /-- a byte that a scanner does not look at -/
  | byte {b : UInt8} {s : Bytes} : b ≠ Byte.question → isQuote b = false → Plain s → Plain (b :: s)
  /-- a quoted stretch -/
  | stretch {q : UInt8} {body s : Bytes} : isQuote q = true → q ∉ body → Plain s →
      Plain (q :: (body ++ q :: s))

/-- Plain texts stay so together, each of them ending outside quotes. -/
theorem Plain.append (hs : Plain s) (ht : Plain t) : Plain (s ++ t) := by
  induction hs with
  | nil => exact ht
  | byte hb hquote _ ih => exact .byte hb hquote ih
  | stretch hquote hbody _ ih =>
    rw [List.cons_append, List.append_assoc]
    exact .stretch hquote hbody ih

/-- An inert text is plain: it has nothing a scanner looks at. -/
theorem Inert.plain (h : Inert s) : Plain s := by
  induction s with
  | nil => exact .nil
  | cons b s ih =>
    obtain ⟨hb, hs⟩ := List.forall_mem_cons.1 h
    exact .byte hb.1 hb.2 (ih hs)

/-- An open quote stays open where it does not occur. -/
theorem scan_of_not_mem (h : q ∉ body) : scan (some q) body = some q := by
  induction body with
  | nil => rfl
  | cons b body ih =>
    obtain ⟨hb, hbody⟩ := List.ne_and_not_mem_of_not_mem_cons h
    rw [scan, List.foldl_cons, step, if_neg (Ne.symm hb)]
    exact ih hbody

/-- Where an open quote does not occur, nothing is a placeholder. -/
theorem countFrom_of_not_mem (h : q ∉ body) : countFrom (some q) body = 0 := by
  induction body with
  | nil => rfl
  | cons b body ih =>
    obtain ⟨hb, hbody⟩ := List.ne_and_not_mem_of_not_mem_cons h
    rw [countFrom, step, if_neg (Ne.symm hb), ih hbody]
    rfl

/-- A scanner goes on outside quotes behind a byte that is none. -/
theorem scan_byte (hquote : isQuote b = false) : scan none (b :: s) = scan none s := by
  rw [scan, List.foldl_cons, step, hquote]
  rfl

/-- A byte that is neither a quote nor a question mark is not counted. -/
theorem count_byte (hb : b ≠ Byte.question) (hquote : isQuote b = false) :
    count (b :: s) = count s := by
  rw [count, countFrom, step, hquote]
  simp [isPlaceholder, hb, count]

/-- A scanner comes out of a stretch as it went in. -/
theorem scan_stretch (hquote : isQuote q = true) (hbody : q ∉ body) :
    scan none (q :: (body ++ q :: s)) = scan none s := by
  have hopen : step none q = some q := if_pos hquote
  have hclose : step (some q) q = none := if_pos rfl
  calc scan none (q :: (body ++ q :: s))
      = scan (scan (some q) body) (q :: s) := by
        rw [← scan_append, scan, List.foldl_cons, hopen, scan]
    _ = scan none s := by rw [scan_of_not_mem hbody, scan, List.foldl_cons, hclose, scan]

/-- A quote is not counted, and what follows it is counted inside. -/
theorem count_quote (hquote : isQuote q = true) : count (q :: s) = countFrom (some q) s := by
  have hopen : step none q = some q := if_pos hquote
  have hne : q ≠ Byte.question := by
    rintro rfl
    exact absurd hquote (by decide)
  rw [count, countFrom, hopen]
  simp [isPlaceholder, hne]

/-- Nothing is counted within a pair of quotes, and a scanner is outside quotes behind it. -/
theorem count_stretch (hquote : isQuote q = true) (hbody : q ∉ body) :
    count (q :: (body ++ q :: s)) = count s := by
  have hclose : step (some q) q = none := if_pos rfl
  rw [count_quote hquote, countFrom_append, countFrom_of_not_mem hbody, scan_of_not_mem hbody,
    countFrom, hclose]
  simp [isPlaceholder, count]

/-- A scanner comes out of a plain text outside quotes. -/
theorem Plain.scan_eq (h : Plain s) : scan none s = none := by
  induction h with
  | nil => rfl
  | byte _ hquote _ ih => rw [scan_byte hquote, ih]
  | stretch hquote hbody _ ih => rw [scan_stretch hquote hbody, ih]

/-- A plain text has no placeholders. -/
theorem Plain.count_eq (h : Plain s) : count s = 0 := by
  induction h with
  | nil => rfl
  | byte hb hquote _ ih => rw [count_byte hb hquote, ih]
  | stretch hquote hbody _ ih => rw [count_stretch hquote hbody, ih]

/-- A scanner comes out of a plain text as it went in. -/
theorem Plain.scan_append (h : Plain s) (t : Bytes) : scan none (s ++ t) = scan none t := by
  rw [Placeholder.scan_append, h.scan_eq]

/-- So a plain text in front changes no count. -/
theorem Plain.count_append (h : Plain s) (t : Bytes) : count (s ++ t) = count t := by
  rw [count, countFrom_append, h.scan_eq]
  exact (congrArg (· + _) h.count_eq).trans (Nat.zero_add _)

/-- A quote is closed where something is counted behind it. -/
theorem exists_closing (hquote : isQuote q = true) (h : count (q :: s) ≠ 0) :
    ∃ body u, s = body ++ q :: u ∧ q ∉ body ∧ count u ≠ 0 := by
  by_cases hmem : q ∈ s
  · obtain ⟨body, u, rfl, hbody⟩ := List.eq_append_cons_of_mem hmem
    rw [count_stretch hquote hbody] at h
    exact ⟨body, u, rfl, hbody, h⟩
  · rw [count_quote hquote] at h
    exact absurd (countFrom_of_not_mem hmem) h

/-- **The first placeholder**: where there is one, a plain text stands before it. The induction is
on the length, for a stretch is passed over as a whole. -/
theorem exists_first (h : count s ≠ 0) : ∃ t rest, s = t ++ Byte.question :: rest ∧ Plain t := by
  induction hn : s.length using Nat.strongRecOn generalizing s with
  | _ n ih =>
    subst hn
    cases s with
    | nil => exact absurd rfl h
    | cons b s =>
      by_cases hb : b = Byte.question
      · exact ⟨[], s, by rw [hb]; rfl, .nil⟩
      cases hquote : isQuote b with
      | false =>
        rw [count_byte hb hquote] at h
        obtain ⟨t, rest, rfl, ht⟩ := ih s.length (Nat.lt_succ_self _) h rfl
        exact ⟨b :: t, rest, rfl, .byte hb hquote ht⟩
      | true =>
        obtain ⟨body, u, rfl, hbody, hu⟩ := exists_closing hquote h
        have hshorter : u.length < (b :: (body ++ b :: u)).length := by
          simp only [List.length_cons, List.length_append]
          omega
        obtain ⟨t, rest, rfl, ht⟩ := ih u.length hshorter hu rfl
        exact ⟨b :: (body ++ b :: t), rest, by simp, .stretch hquote hbody ht⟩

/-! ## Literals -/

theorem Inert.of_subset (h : Inert t) (hs : s ⊆ t) : Inert s := fun b hb => h b (hs hb)

theorem inert_fraction (h : Inert s) : Inert (Decimal.fraction s) := by
  rw [Decimal.fraction]
  split
  · exact List.forall_mem_nil _
  · exact List.forall_mem_cons.2 ⟨by decide, h⟩

theorem inert_trimZeros (h : Inert s) : Inert (Decimal.trimZeros s) := by
  refine h.of_subset fun b hb => ?_
  rw [Decimal.trimZeros, List.mem_reverse] at hb
  exact List.mem_reverse.1 ((List.dropWhile_sublist _).subset hb)

/-- An exponent is written with digits, a sign and the letter for it. -/
theorem inert_exponentText (x : Int) : Inert (Decimal.exponentText x) := by
  have hdigits := inert_natText x.natAbs
  refine List.forall_mem_cons.2 ⟨by decide, List.forall_mem_cons.2 ⟨?_, ?_⟩⟩
  · split <;> decide
  · split
    · exact List.forall_mem_cons.2 ⟨by decide, hdigits⟩
    · exact hdigits

/-- All the forms of a real number are digits with a point, a sign or an exponent among them. -/
theorem inert_layout (digits n : Nat) (x : Int) : Inert (Decimal.layout digits n x) := by
  have hds := inert_natText n
  have htake : ∀ k, Inert ((Decimal.natText n).take k) := fun k =>
    hds.of_subset (List.take_subset k _)
  have hdrop : ∀ k, Inert (Decimal.fraction (Decimal.trimZeros ((Decimal.natText n).drop k))) :=
    fun k => inert_fraction (inert_trimZeros (hds.of_subset (List.drop_subset k _)))
  unfold Decimal.layout
  dsimp only
  split
  · exact ((htake 1).append (hdrop 1)).append (inert_exponentText x)
  · cases x with
    | ofNat x => exact (htake (x + 1)).append (hdrop (x + 1))
    | negSucc x =>
      have hzeros : Inert (List.replicate x 48) := fun b hb => by
        rw [List.eq_of_mem_replicate hb]
        decide
      exact List.forall_mem_cons.2
        ⟨by decide, inert_fraction (hzeros.append (inert_trimZeros hds))⟩

/-- The decimal text of a double has no byte that a scanner looks at. -/
theorem inert_general (digits : Nat) (x : Float) : Inert (Decimal.general digits x) := by
  have hsign : ∀ negative : Bool, Inert (if negative then ascii "-" else []) := by decide
  rw [Decimal.general]
  split
  · decide
  · exact (hsign _).append (by decide)
  · refine (hsign _).append ?_
    split
    · decide
    · exact inert_layout _ _ _

/-- The inside of a quoted text: each quote is written twice. -/
def doubled (s : Bytes) : Bytes := s.flatMap fun b => if b = Byte.quote then [b, b] else [b]

/-- A doubled quote ends one stretch and begins the next. The induction carries what stands since
the last quote. -/
theorem plain_doubled (s : Bytes) {body : Bytes} (hbody : Byte.quote ∉ body) :
    Plain (Byte.quote :: (body ++ (doubled s ++ [Byte.quote]))) := by
  induction s generalizing body with
  | nil => exact .stretch rfl hbody .nil
  | cons b s ih =>
    rw [doubled, List.flatMap_cons, ← doubled]
    by_cases hb : b = Byte.quote
    · subst hb
      rw [if_pos rfl]
      exact .stretch rfl hbody (ih List.not_mem_nil)
    · rw [if_neg hb, List.append_assoc, ← List.append_assoc]
      refine ih fun hmem => ?_
      rcases List.mem_append.1 hmem with hmem | hmem
      · exact hbody hmem
      · exact hb (List.mem_singleton.1 hmem).symm

/-- A quoted text is plain, whatever its bytes. -/
theorem plain_quoted (s : Bytes) : Plain (quoted s) := plain_doubled s List.not_mem_nil

/-- **Every literal is plain**, whatever its value. -/
theorem plain_literal (v : Value) : Plain v.literal := by
  cases v with
  | null => exact Inert.plain (by decide)
  | integer n => exact (inert_intText n.toInt).plain
  | real x => exact (inert_general 6 x).plain
  | text s => exact plain_quoted s

/-! ## Expansion -/

/-- Some texts with a placeholder after each, and a rest. -/
def withPlaceholders (texts : List Bytes) (rest : Bytes) : Bytes :=
  texts.flatMap (· ++ [Byte.question]) ++ rest

/-- Some texts with the literal of a value after each, and a rest. -/
def withLiterals (texts : List Bytes) (vs : List Value) (rest : Bytes) : Bytes :=
  (List.zipWith (fun t v => t ++ v.literal) texts vs).flatten ++ rest

/-- What has no placeholders is copied. -/
theorem expand_of_count_eq_zero (h : count s = 0) (vs : List Value) : expand s vs = s := by
  have happend : expandFrom none (s ++ []) ([] ++ vs) =
      expandFrom none s [] ++ expandFrom (scan none s) [] vs := expandFrom_append h
  rw [List.append_nil, List.nil_append, expandFrom_nil] at happend
  rw [expand, happend]
  cases vs <;> exact List.append_nil s

/-- The first placeholder takes the first value. -/
theorem expand_first (h : Plain t) (rest : Bytes) (v : Value) (vs : List Value) :
    expand (t ++ Byte.question :: rest) (v :: vs) = t ++ (v.literal ++ expand rest vs) := by
  have happend : expandFrom none (t ++ Byte.question :: rest) ([] ++ v :: vs) =
      expandFrom none t [] ++ expandFrom (scan none t) (Byte.question :: rest) (v :: vs) :=
    expandFrom_append h.count_eq
  rw [List.nil_append, expandFrom_nil, h.scan_eq] at happend
  exact happend

/-- The question mark behind a plain text is a placeholder. -/
theorem count_first (h : Plain t) (rest : Bytes) :
    count (t ++ Byte.question :: rest) = 1 + count rest := by
  rw [h.count_append]
  rfl

/-- **A statement is expanded at its first placeholders**, as many as there are values for. -/
theorem exists_texts (sql : Bytes) (vs : List Value) :
    ∃ texts rest, texts.length = min (count sql) vs.length ∧ (∀ t ∈ texts, Plain t) ∧
      sql = withPlaceholders texts rest ∧ expand sql vs = withLiterals texts vs rest ∧
      count sql = texts.length + count rest := by
  induction vs generalizing sql with
  | nil =>
    exact ⟨[], sql, (Nat.min_zero _).symm, List.forall_mem_nil _, rfl, expandFrom_nil none sql,
      (Nat.zero_add _).symm⟩
  | cons v vs ih =>
    -- without a placeholder left, the other values are not used; else the first value takes the
    -- first one
    by_cases hcount : count sql = 0
    · exact ⟨[], sql, by rw [hcount]; exact (Nat.zero_min _).symm, List.forall_mem_nil _, rfl,
        expand_of_count_eq_zero hcount _, (Nat.zero_add _).symm⟩
    · obtain ⟨t, sql, rfl, ht⟩ := exists_first hcount
      obtain ⟨texts, rest, hlength, hplain, hsql, hexpand, htotal⟩ := ih sql
      refine ⟨t :: texts, rest, ?length, List.forall_mem_cons.2 ⟨ht, hplain⟩, ?sql, ?expand, ?count⟩
      case length =>
        rw [count_first ht, List.length_cons, List.length_cons, hlength]
        omega
      case sql =>
        conv_lhs => rw [hsql]
        simp [withPlaceholders]
      case expand =>
        rw [expand_first ht, hexpand]
        simp [withLiterals]
      case count =>
        rw [count_first ht, htotal, List.length_cons]
        omega

/-- Plain texts with literals after them are plain. -/
theorem plain_withLiterals {texts : List Bytes} (h : ∀ t ∈ texts, Plain t) (vs : List Value) :
    Plain (withLiterals texts vs []) := by
  rw [withLiterals, List.append_nil]
  induction texts generalizing vs with
  | nil => exact .nil
  | cons t texts ih =>
    obtain ⟨ht, htexts⟩ := List.forall_mem_cons.1 h
    cases vs with
    | nil => exact .nil
    | cons v vs => exact (ht.append (plain_literal v)).append (ih htexts vs)

/-- A scanner comes to the rest outside quotes. -/
theorem scan_withPlaceholders {texts : List Bytes} (h : ∀ t ∈ texts, Plain t) (rest : Bytes) :
    scan none (withPlaceholders texts rest) = scan none rest := by
  induction texts with
  | nil => rfl
  | cons t texts ih =>
    obtain ⟨ht, htexts⟩ := List.forall_mem_cons.1 h
    have hcons : withPlaceholders (t :: texts) rest =
        t ++ Byte.question :: withPlaceholders texts rest := by simp [withPlaceholders]
    rw [hcons, ht.scan_append]
    exact ih htexts

end Placeholder

open Placeholder

/-- **Expansion replaces the first placeholders and nothing else.** As many of the placeholders
outside quotes as there are parameters, or all of them, become the literals of the parameters, in
order, and every other byte is copied. The literals leave the quotes of the statement as they are,
and the placeholders of the expanded text are those that were left. -/
theorem Statement.expanded_replaces (st : Statement) :
    (∃ texts rest, texts.length = min (count st.sql) st.params.length ∧
      (∀ t ∈ texts, Plain t) ∧ (∀ v ∈ st.params, Plain v.literal) ∧
      st.sql = withPlaceholders texts rest ∧
      st.expanded = withLiterals texts st.params rest ∧
      count rest = count st.sql - min (count st.sql) st.params.length) ∧
    count st.expanded = count st.sql - min (count st.sql) st.params.length ∧
    scan none st.expanded = scan none st.sql := by
  obtain ⟨texts, rest, hlength, hplain, hsql, hexpand, htotal⟩ := exists_texts st.sql st.params
  have hrest : count rest = count st.sql - min (count st.sql) st.params.length := by omega
  have hwritten : st.expanded = withLiterals texts st.params [] ++ rest := by
    rw [expanded, hexpand, withLiterals, withLiterals, List.append_nil]
  refine ⟨⟨texts, rest, hlength, hplain, fun v _ => plain_literal v, hsql, hexpand, hrest⟩, ?_, ?_⟩
  · rw [hwritten, (plain_withLiterals hplain _).count_append, hrest]
  · rw [hwritten, (plain_withLiterals hplain _).scan_append]
    conv_rhs => rw [hsql]
    exact (scan_withPlaceholders hplain rest).symm

/-- Neither the quote nor the question mark of the text is taken for one of the statement. -/
example : Statement.expanded ⟨ascii "SELECT '?', ? WHERE x = ?", [.text (ascii "it's ?")]⟩ =
    ascii "SELECT '?', 'it''s ?' WHERE x = ?" := by decide

end SqlPlan
