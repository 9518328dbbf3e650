import SqlPlan.Proofs.Composition
import SqlPlan.Proofs.Decimal

/-!
# Keywords outside parentheses

A reader of SQL finds the parts of a text by its keywords, and it looks for them outside parentheses
only. `cut` takes a text apart at the keywords of one kind. That it finds those keywords which were
written as such, and no others, is what `cut_written` says: a text with a keyword between any two
pieces is cut into these pieces, if each piece is `Level`.

A piece is level with regard to some marks if its parentheses match and if none of the marks could
begin at a word of it outside parentheses, whatever follows the piece. Texts that follow one another
are level if each one is, so emission writes level text (`composes_level`); no word of an expression
is a mark, and no name is, if it has neither capitals nor parentheses.
-/

namespace SqlPlan

namespace Byte

/-- the blank -/
abbrev blank : UInt8 := 32

/-- the opening parenthesis -/
abbrev opening : UInt8 := 40

/-- the closing parenthesis -/
abbrev closing : UInt8 := 41

/-- the star -/
abbrev star : UInt8 := 42

end Byte

namespace Bytes

/-! ## Texts that differ -/

/-- The two texts differ at a place that both of them have. -/
def apart : Bytes → Bytes → Bool
  | a :: s, b :: t => a != b || apart s t
  | _, _ => false

/-- What makes a text differ from the marks is at its beginning, so more text behind it changes
nothing. -/
theorem apart_append {s t : Bytes} (h : apart s t = true) (u : Bytes) :
    apart s (t ++ u) = true := by
  induction s generalizing t with
  | nil => cases h
  | cons a s ih =>
    cases t with
    | nil => cases h
    | cons b t =>
      rw [apart, Bool.or_eq_true] at h
      rw [List.cons_append, apart, Bool.or_eq_true]
      exact h.imp_right ih

/-- A text that is apart from another does not begin it. -/
theorem isPrefixOf_of_apart {s t : Bytes} (h : apart s t = true) : s.isPrefixOf t = false := by
  induction s generalizing t with
  | nil => cases h
  | cons a s ih =>
    cases t with
    | nil => rfl
    | cons b t =>
      rw [apart, Bool.or_eq_true, bne_iff_ne] at h
      rw [List.isPrefixOf_cons_cons, Bool.and_eq_false_iff, beq_eq_false_iff_ne]
      exact h.imp_right ih

/-! ## Level text -/

/-- The number of parentheses that are open after a byte, of those that were before it. -/
def depthAfter (d : Nat) (b : UInt8) : Nat :=
  if b = Byte.opening then d + 1 else if b = Byte.closing then d - 1 else d

/-- From `d` open parentheses on, the text leads to `e` of them and closes none that was open before
it. At the words that begin outside parentheses it differs from all marks; `start` tells whether a
word begins here. -/
def LevelFrom (marks : List Bytes) : (start : Bool) → (d : Nat) → Bytes → (e : Nat) → Prop
  | _, d, [], e => d = e
  | start, d, b :: s, e =>
    (start = true → d = 0 → ∀ m ∈ marks, apart m (b :: s) = true) ∧ (b = Byte.closing → d ≠ 0) ∧
      LevelFrom marks (b == Byte.blank) (depthAfter d b) s e

instance decidableLevelFrom (marks : List Bytes) :
    ∀ start d s e, Decidable (LevelFrom marks start d s e)
  | _, d, [], e => inferInstanceAs (Decidable (d = e))
  | _, d, b :: s, e =>
    have := decidableLevelFrom marks (b == Byte.blank) (depthAfter d b) s e
    inferInstanceAs (Decidable (_ ∧ _ ∧ _))

/-- The parentheses of the text match, and no mark could begin at a word of it outside them. -/
def Level (marks : List Bytes) (s : Bytes) : Prop := LevelFrom marks true 0 s 0

instance (marks : List Bytes) (s : Bytes) : Decidable (Level marks s) :=
  inferInstanceAs (Decidable (LevelFrom marks true 0 s 0))

variable {marks marks' : List Bytes} {start : Bool} {d e e' : Nat} {s t : Bytes}

/-- Where a word may begin, it need not. -/
theorem LevelFrom.weaken (h : LevelFrom marks true d s e) : LevelFrom marks start d s e := by
  cases s with
  | nil => exact h
  | cons b s => exact ⟨fun _ => h.1 rfl, h.2⟩

/-- A scan goes on where the one before it ended, with the parentheses that were open there. -/
theorem LevelFrom.append (hs : LevelFrom marks start d s e) (ht : LevelFrom marks true e t e') :
    LevelFrom marks start d (s ++ t) e' := by
  induction s generalizing start d with
  | nil =>
    obtain rfl : d = e := hs
    exact ht.weaken
  | cons b s ih =>
    obtain ⟨hmarks, hclose, hs⟩ := hs
    refine ⟨?_, hclose, ih hs⟩
    intro hstart hd m hm
    exact apart_append (hmarks hstart hd m hm) t

/-- Level texts stay so together: the first one ends outside parentheses, and no mark begins in it
that the second one could complete. -/
theorem Level.append (hs : Level marks s) (ht : Level marks t) : Level marks (s ++ t) :=
  LevelFrom.append hs ht

/-- In one more pair of parentheses no mark is looked for. -/
theorem LevelFrom.deepen (h : LevelFrom marks start d s e) {start' : Bool} :
    LevelFrom marks' start' (d + 1) s (e + 1) := by
  induction s generalizing start start' d with
  | nil =>
    obtain rfl : d = e := h
    exact rfl
  | cons b s ih =>
    obtain ⟨-, hclose, hs⟩ := h
    refine ⟨fun _ hd => absurd hd (Nat.succ_ne_zero d), fun _ => Nat.succ_ne_zero d, ?_⟩
    have hdepth : depthAfter (d + 1) b = depthAfter d b + 1 := by
      rw [depthAfter, depthAfter]
      split
      · rfl
      · split
        · have := hclose ‹_›
          omega
        · rfl
    rw [hdepth]
    exact ih hs

/-- A text between a text that opens a parenthesis and one that closes it. -/
theorem Level.enclose {before after : Bytes} (hbefore : LevelFrom marks true 0 before 1)
    (hs : Level marks' s) (hafter : LevelFrom marks true 1 after 0) :
    Level marks (before ++ s ++ after) :=
  (hbefore.append hs.deepen).append hafter

/-- A text without some marks is without fewer of them. -/
theorem LevelFrom.mono (h : LevelFrom marks' start d s e) (hsub : marks ⊆ marks') :
    LevelFrom marks start d s e := by
  induction s generalizing start d with
  | nil => exact h
  | cons b s ih =>
    obtain ⟨hmarks, hclose, hs⟩ := h
    exact ⟨fun hstart hd m hm => hmarks hstart hd m (hsub hm), hclose, ih hs⟩

theorem Level.mono (h : Level marks' s) (hsub : marks ⊆ marks') : Level marks s :=
  LevelFrom.mono h hsub

/-- A name that is no keyword and has none in it: there are no capitals and no parentheses. -/
def PlainName (s : Bytes) : Prop :=
  ∀ b ∈ s, Byte.isUpper b = false ∧ b ≠ Byte.opening ∧ b ≠ Byte.closing

instance (s : Bytes) : Decidable (PlainName s) := List.decidableBAll _ s

/-- The mark begins with a capital. -/
def Capital (m : Bytes) : Prop := m.head?.any Byte.isUpper = true

instance (m : Bytes) : Decidable (Capital m) := inferInstanceAs (Decidable (_ = true))

/-- The text is empty or begins with a blank. -/
def StartsBlank (s : Bytes) : Prop := ∀ b ∈ s.head?, b = Byte.blank

theorem startsBlank_nil : StartsBlank [] := nofun

theorem startsBlank_blank (s : Bytes) : StartsBlank (Byte.blank :: s) :=
  fun _ hb => (Option.some.inj hb).symm

theorem StartsBlank.append (hs : StartsBlank s) (ht : StartsBlank t) : StartsBlank (s ++ t) := by
  cases s with
  | nil => exact ht
  | cons b s => exact hs

/-- A mark does not begin with a blank. -/
theorem Capital.isPrefixOf_eq_false {m : Bytes} (hm : Capital m) (ht : StartsBlank t) :
    m.isPrefixOf t = false := by
  cases m with
  | nil => cases hm
  | cons c m =>
    cases t with
    | nil => rfl
    | cons b t =>
      obtain rfl := ht b rfl
      rw [List.isPrefixOf_cons_cons, Bool.and_eq_false_iff, beq_eq_false_iff_ne]
      left
      rintro rfl
      cases hm

/-- A plain name differs from every mark in its first byte. -/
theorem PlainName.level (h : PlainName s) (hmarks : ∀ m ∈ marks, Capital m) : Level marks s := by
  have hfrom : ∀ start, LevelFrom marks start 0 s 0 := by
    induction s with
    | nil => exact fun _ => rfl
    | cons b s ih =>
      obtain ⟨⟨hupper, hopen, hclose⟩, hs⟩ := List.forall_mem_cons.1 h
      intro start
      have hdepth : depthAfter 0 b = 0 := by rw [depthAfter, if_neg hopen, if_neg hclose]
      refine ⟨?_, fun hb => absurd hb hclose, hdepth.symm ▸ ih hs _⟩
      intro _ _ m hm
      have hcapital := hmarks m hm
      cases m with
      | nil => cases hcapital
      | cons c m =>
        rw [apart, Bool.or_eq_true, bne_iff_ne]
        left
        rintro rfl
        have hc : Byte.isUpper c = true := hcapital
        rw [hupper] at hc
        cases hc
  exact hfrom true

/-- Digits are neither capitals nor parentheses. -/
theorem PlainName.of_isDigit (h : ∀ b ∈ s, Byte.isDigit b = true) : PlainName s := by
  intro b hb
  have hdigit := h b hb
  revert hdigit
  rw [Byte.isDigit, Byte.isUpper]
  grind

end Bytes

/-! ## Keywords -/

/-- Keywords of one kind with their spelling. Each one stands after a blank. -/
structure Keywords (κ : Type) where
  /-- the keywords; where one begins like another, the longer one first -/
  all : List κ
  /-- how a keyword is spelled, after its blank -/
  word : κ → Bytes

namespace Keywords

open Bytes

variable {κ : Type} (K : Keywords κ)

/-- The spellings. -/
def marks : List Bytes := K.all.map K.word

/-- The keyword that the text begins with. -/
def find? (s : Bytes) : Option κ := K.all.find? fun k => (K.word k).isPrefixOf s

/-- Cuts a text at the keywords outside parentheses, of which `d` are open; `skip` bytes belong to
the keyword before. -/
def cutFrom : (skip d : Nat) → Bytes → Bytes × List (κ × Bytes)
  | _, _, [] => ([], [])
  | skip + 1, d, _ :: s => cutFrom skip d s
  | 0, d, b :: s =>
    match if b = Byte.blank ∧ d = 0 then K.find? s else none with
    | some k =>
      let (x, rest) := cutFrom (K.word k).length d s
      ([], (k, x) :: rest)
    | none =>
      let (x, rest) := cutFrom 0 (depthAfter d b) s
      (b :: x, rest)

/-- The piece before the first keyword outside parentheses, and the keywords, each with the piece
after it. -/
def cut (s : Bytes) : Bytes × List (κ × Bytes) := K.cutFrom 0 0 s

/-- Keywords, each with the piece after it, as text. -/
def written (rest : List (κ × Bytes)) : Bytes :=
  rest.flatMap fun (k, x) => Byte.blank :: (K.word k ++ x)

variable {K} {s t x : Bytes} {k : κ} {rest : List (κ × Bytes)}

@[simp] theorem written_nil : K.written [] = [] := rfl

@[simp] theorem written_cons :
    K.written ((k, x) :: rest) = Byte.blank :: (K.word k ++ (x ++ K.written rest)) := by
  simp [written]

@[simp] theorem written_append {rest' : List (κ × Bytes)} :
    K.written (rest ++ rest') = K.written rest ++ K.written rest' :=
  List.flatMap_append

/-- Where no mark stands, no keyword is found. -/
theorem find?_eq_none (h : ∀ m ∈ K.marks, m.isPrefixOf s = false) : K.find? s = none := by
  rw [find?, List.find?_eq_none]
  intro k hk
  rw [Bool.not_eq_true]
  exact h _ (List.mem_map_of_mem hk)

/-- The bytes of a keyword that was found are skipped. -/
theorem cutFrom_append_of_length (s : Bytes) : K.cutFrom s.length 0 (s ++ t) = K.cut t := by
  induction s with
  | nil => rfl
  | cons b s ih => exact ih

/-- A keyword is cut off where it is recognised. -/
theorem cut_keyword (h : K.find? (K.word k ++ s) = some k) :
    K.cut (Byte.blank :: (K.word k ++ s)) = ([], (k, (K.cut s).1) :: (K.cut s).2) := by
  rw [cut, cutFrom, if_pos ⟨rfl, rfl⟩, h]
  simp only [cutFrom_append_of_length]

/-- No keyword is found at a word that a level text begins with. -/
theorem find?_append_eq_none (hK : ∀ m ∈ K.marks, Capital m) {d : Nat}
    (hs : LevelFrom K.marks true 0 s d) (ht : StartsBlank t) : K.find? (s ++ t) = none := by
  apply find?_eq_none
  intro m hm
  cases s with
  | nil => exact (hK m hm).isPrefixOf_eq_false ht
  | cons b s => exact isPrefixOf_of_apart (apart_append (hs.1 rfl rfl m hm) t)

/-- A level text is copied into the piece that is being read, and cutting goes on behind it. -/
theorem cutFrom_append (hK : ∀ m ∈ K.marks, Capital m) {start : Bool} {d : Nat}
    (hs : LevelFrom K.marks start d s 0) (ht : StartsBlank t) :
    K.cutFrom 0 d (s ++ t) = (s ++ (K.cut t).1, (K.cut t).2) := by
  induction s generalizing start d with
  | nil =>
    obtain rfl : d = 0 := hs
    rfl
  | cons b s ih =>
    obtain ⟨-, -, hs⟩ := hs
    have hnone : (if b = Byte.blank ∧ d = 0 then K.find? (s ++ t) else none) = none := by
      split
      · obtain ⟨rfl, rfl⟩ := ‹b = Byte.blank ∧ d = 0›
        exact find?_append_eq_none hK hs ht
      · rfl
    rw [List.cons_append, cutFrom, hnone]
    simp only [ih hs, List.cons_append]

/-- Nothing is cut off from a level text, whatever keywords follow it. -/
theorem cut_append (hK : ∀ m ∈ K.marks, Capital m) (hs : Level K.marks s) (ht : StartsBlank t) :
    K.cut (s ++ t) = (s ++ (K.cut t).1, (K.cut t).2) :=
  cutFrom_append hK hs ht

/-- Where two texts are one, level texts before their first keywords are one. -/
theorem eq_of_append_eq (hK : ∀ m ∈ K.marks, Capital m) {start : Bool} {y : Bytes} {k' : κ}
    (hx : LevelFrom K.marks start 0 x 0) (hy : Level K.marks y)
    (hk : K.find? (K.word k ++ s) = some k) (hk' : K.find? (K.word k' ++ t) = some k')
    (h : x ++ Byte.blank :: (K.word k ++ s) = y ++ Byte.blank :: (K.word k' ++ t)) : x = y := by
  have hcutx := cutFrom_append hK hx (startsBlank_blank (K.word k ++ s))
  have hcuty := cutFrom_append hK hy (startsBlank_blank (K.word k' ++ t))
  rw [cut_keyword hk, List.append_nil] at hcutx
  rw [cut_keyword hk', List.append_nil] at hcuty
  rw [h, hcuty] at hcutx
  exact (congrArg Prod.fst hcutx).symm

/-- A keyword stands behind a blank, so what is written after a text cannot continue a word in
it. -/
theorem startsBlank_written : StartsBlank (K.written rest) := by
  cases rest with
  | nil => exact startsBlank_nil
  | cons p rest => exact startsBlank_blank _

/-- **A text is cut into the pieces that it was written from**, if they are level and the keywords
between them are recognised. -/
theorem cut_written (hK : ∀ m ∈ K.marks, Capital m) (hx : Level K.marks x)
    (hrest : ∀ p ∈ rest, Level K.marks p.2 ∧ ∀ t, K.find? (K.word p.1 ++ (p.2 ++ t)) = some p.1) :
    K.cut (x ++ K.written rest) = (x, rest) := by
  have hwritten : K.cut (K.written rest) = ([], rest) := by
    induction rest with
    | nil => rfl
    | cons p rest ih =>
      obtain ⟨k, y⟩ := p
      obtain ⟨⟨hy, hk⟩, hrest⟩ := List.forall_mem_cons.1 hrest
      rw [written_cons, cut_keyword (hk _), cut_append hK hy startsBlank_written, ih hrest,
        List.append_nil]
  rw [cut_append hK hx startsBlank_written, hwritten, List.append_nil]

/-- A level text is a single piece. -/
theorem cut_of_level (hK : ∀ m ∈ K.marks, Capital m) (hx : Level K.marks x) :
    K.cut x = (x, []) := by
  have hnil : K.cut [] = ([], []) := rfl
  have hcut := cut_append hK hx startsBlank_nil
  rwa [hnil, List.append_nil] at hcut

end Keywords

/-! ## The keywords of a plan -/

namespace Keywords

/-- The set operations. UNION begins like UNION ALL and therefore comes after it. -/
def setOps : Keywords SetOp :=
  ⟨[.unionAll, .union, .intersect, .except], fun op => op.text ++ ascii " "⟩

end Keywords

/-- The clauses at the end of a SELECT or of a set operation. -/
inductive EndClause where
  | orderBy
  | limit
  | offset
deriving DecidableEq, Repr

namespace Keywords

/-- The clauses at the end. -/
def endClauses : Keywords EndClause where
  all := [.orderBy, .limit, .offset]
  word
    | .orderBy => ascii "ORDER BY "
    | .limit => ascii "LIMIT "
    | .offset => ascii "OFFSET "

/-- The clause with the table of the rows. -/
def tables : Keywords Unit := ⟨[()], fun _ => ascii "FROM "⟩

end Keywords

/-! ## What is emitted is level -/

namespace Bytes

open Fragment Keywords

/-- The marks that a bare SELECT has none of. -/
def selectMarks : List Bytes := setOps.marks ++ endClauses.marks

/-- The marks that no word of an expression could be. -/
def exprMarks : List Bytes := selectMarks ++ tables.marks

variable {marks : List Bytes}

/-- **What is emitted is level** with regard to marks that no word of an expression could be. -/
theorem composes_level (hmarks : marks ⊆ exprMarks) :
    Composes (Level marks) fun f => Level marks f.sql where
  nil := rfl
  append {f g} hf hg := by
    rw [sql_append]
    exact hf.append hg
  -- what stands in parentheses is scanned one level down, where no mark counts
  parens {f} hf := by
    have hopen : LevelFrom exprMarks true 0 (ascii "(") 1 := by decide
    have hclose : LevelFrom exprMarks true 1 (ascii ")") 0 := by decide
    rw [Fragment.parens, sql_append, sql_append, Fragment.word, Fragment.word, sql_ofText,
      sql_ofText]
    exact Level.enclose (hopen.mono hmarks) hf (hclose.mono hmarks)
  bound v := by
    have hquestion : Level exprMarks [Byte.question] := by decide
    exact hquestion.mono hmarks
  ofText {s} hs := by
    rw [sql_ofText]
    exact hs
  text_nil := rfl
  text_append := Level.append
  call fn := by
    have hfn : Level exprMarks fn.text := by cases fn <;> decide
    exact hfn.mono hmarks
  aggregate fn := by
    have hfn : Level exprMarks fn.text := by cases fn <;> decide
    exact hfn.mono hmarks
  arith op := by
    have hop : Level exprMarks (ascii " " ++ op.text ++ ascii " ") := by cases op <;> decide
    exact hop.mono hmarks
  compare op := by
    have hop : Level exprMarks (ascii " " ++ op.text ++ ascii " ") := by cases op <;> decide
    exact hop.mono hmarks
  logic op := by
    have hop : Level exprMarks (ascii " " ++ op.text ++ ascii " ") := by cases op <;> decide
    exact hop.mono hmarks
  words := by
    have hwords : ∀ w ∈ exprWords, Level exprMarks (ascii w) := by decide
    exact fun w hw => (hwords w hw).mono hmarks

end Bytes

namespace Query

open Bytes Fragment Keywords

variable {Γ : Catalog} {q : Query} {f : Fragment}

/-- A query without fragments of the caller has plain names only, which are no marks. -/
theorem spelled_of_plain {marks : List Bytes} (hmarks : ∀ m ∈ marks, Capital m)
    (hnames : ∀ n ∈ q.names Γ, PlainName n) (hraws : ∀ e ∈ q.exprs, e.raws = []) :
    q.Spelled (Level marks) (fun f => Level marks f.sql) Γ := by
  refine .of_names (fun n hn => (hnames n hn).level hmarks) ?_
  intro e he r hr
  rw [hraws e he] at hr
  cases hr

/-- A number has no mark, because marks begin with a capital. -/
theorem level_natText {marks : List Bytes} (hmarks : ∀ m ∈ marks, Capital m) (n : Nat) :
    Level marks (Decimal.natText n) :=
  (PlainName.of_isDigit fun _ hb => Decimal.isDigit_of_mem_natText hb).level hmarks

/-- No set operation is found in a query, and no clause at the end where it has none. -/
theorem level_emit (hnames : ∀ n ∈ q.names Γ, PlainName n) (hraws : ∀ e ∈ q.exprs, e.raws = [])
    (h : q.emit Γ = .ok f) :
    Level setOps.marks f.sql ∧
      (q.isOrderedOrPaged = false → Level selectMarks f.sql) := by
  constructor
  · have hset : ∀ m ∈ setOps.marks, Capital m := by decide
    refine holds_emit (composes_level (by decide)) (by decide) (spelled_of_plain hset hnames hraws)
      ?_ h
    exact fun _ => ⟨by decide, level_natText hset⟩
  · intro hbare
    have hall : ∀ m ∈ selectMarks, Capital m := by decide
    refine holds_emit (composes_level (by decide)) (by decide) (spelled_of_plain hall hnames hraws)
      ?_ h
    rw [hbare]
    exact nofun

/-- A clause after the FROM clause begins with a blank where there is one. -/
theorem startsBlank_clauses {a b c d : Fragment} (ha : q.emitWhere Γ = .ok a)
    (hb : q.emitKeys Γ = .ok b) (hc : q.emitHaving Γ = .ok c) (hd : q.emitOrder Γ = .ok d) :
    StartsBlank (a.sql ++ b.sql ++ c.sql ++ d.sql ++ q.paging.text) := by
  -- each clause is empty or begins with the blank before its keyword
  refine .append (.append (.append (.append ?_ ?_) ?_) ?_) ?_
  · rcases emitWhere_eq_ok.1 ha with ⟨-, rfl⟩ | ⟨-, a, -, rfl⟩
    · exact startsBlank_nil
    · exact startsBlank_blank _
  · rcases emitKeys_eq_ok.1 hb with ⟨-, rfl⟩ | ⟨-, a, -, rfl⟩
    · exact startsBlank_nil
    · exact startsBlank_blank _
  · rcases emitHaving_eq_ok.1 hc with ⟨-, rfl⟩ | ⟨-, -, a, -, rfl⟩
    · exact startsBlank_nil
    · exact startsBlank_blank _
  · rcases emitOrder_eq_ok.1 hd with ⟨-, rfl⟩ | ⟨-, a, -, rfl⟩
    · exact startsBlank_nil
    · exact startsBlank_blank _
  · rw [Paging.text]
    refine .append ?_ ?_
    · split
      · exact startsBlank_blank _
      · exact startsBlank_blank _
      · exact startsBlank_nil
    · split
      · exact startsBlank_blank _
      · exact startsBlank_nil

/-- A query is a SELECT of columns that are no table, then the table of the rows, and then nothing
or a blank. -/
theorem exists_columns (hnames : ∀ n ∈ q.names Γ, PlainName n)
    (hraws : ∀ e ∈ q.exprs, e.raws = []) (h : q.emit Γ = .ok f) :
    ∃ columns more,
      f.sql = ascii "SELECT " ++ (columns ++ (ascii " FROM " ++ ((Γ q.source).table ++ more))) ∧
      Level tables.marks columns ∧ StartsBlank more := by
  obtain ⟨columns, rows, keys, having, order, hcolumns, hrows, hkeys, hhaving, horder, rfl⟩ :=
    emit_eq_ok.1 h
  obtain ⟨table, filters, htable, hfilters, rfl⟩ := emitRows_eq_ok.1 hrows
  have hmarks : ∀ m ∈ tables.marks, Capital m := by decide
  have hlevel := holds_emitColumns (composes_level (by decide))
    (spelled_of_plain hmarks hnames hraws) hcolumns
  have hdistinct : Level tables.marks (sql (if q.distinct then word "DISTINCT " else [])) := by
    cases q.distinct <;> decide
  have hclauses := startsBlank_clauses hfilters hkeys hhaving horder
  -- behind the table of the rows comes a join or nothing
  obtain ⟨joined, hjoined, hblank⟩ : ∃ joined, table.sql =
      ascii "FROM " ++ ((Γ q.source).table ++ joined) ∧ StartsBlank joined := by
    rcases emitFrom_eq_ok.1 htable with ⟨-, rfl⟩ | ⟨j, a, b, -, -, -, rfl⟩
    · exact ⟨[], by simp, startsBlank_nil⟩
    · refine ⟨ascii " " ++ j.kind.text ++ ascii " " ++ (Γ j.inner).table ++ ascii " ON " ++ a.sql ++
        ascii " = " ++ b.sql, ?_, startsBlank_blank _⟩
      simp only [sql_append, sql_ofText, Fragment.word, List.append_assoc]
  refine ⟨_, _, ?_, hdistinct.append hlevel, hblank.append hclauses⟩
  simp only [sql_append, sql_ofText, hjoined, List.append_assoc, Fragment.word]
  rfl

end Query

end SqlPlan
