import Mathlib.Data.Set.Function
import SqlPlan.Proofs.NormalForm

/-!
# Reading emitted SQL back

Emission puts no more parentheses than it must, and not always by the same rule: some operands are
wrapped when they are compound, some always, and the argument of a function never twice. That this
loses nothing is shown by a reader of the emitted SQL. `NormalForm.readsFrom_of_size_le` says that
it gives back every normal form whose columns have plain names, and `Expr.normal_eq_of_emit` that
two expressions emitted alike have the same normal form.

The reader takes an operand (a name, or a head that tells what follows), and then a link that tells
what the operand is part of. Where no link follows the operand is all there is, so a form is read
from a statement that goes on with nothing or with a closing parenthesis (`Statement.isClosed`).
-/

namespace SqlPlan

/-! ## Names and places -/

/-- A byte of a plain name after its first. -/
def Byte.isName (b : UInt8) : Bool :=
  Byte.isLower b || Byte.isDigit b || b == Byte.underscore || b == Byte.point

/-- A plain name: a small letter, followed by small letters, digits, underscores and points. -/
def Bytes.isName : Bytes → Bool
  | [] => false
  | b :: s => Byte.isLower b && s.all Byte.isName

/-- Does the statement begin with a plain name? -/
def Statement.startsName (st : Statement) : Bool :=
  match st.sql with
  | [] => false
  | b :: _ => Byte.isLower b

/-- The statement is at its end, or goes on with something that is part of no name. -/
def Statement.stopsName (st : Statement) : Bool :=
  match st.sql with
  | [] => true
  | b :: _ => !Byte.isName b

/-- The statement is at its end, or goes on with a closing parenthesis. -/
def Statement.isClosed (st : Statement) : Bool :=
  match st.sql with
  | [] => true
  | b :: _ => b == 41

/-- Where an expression may end, a name ends as well. -/
theorem Statement.stopsName_of_isClosed {st : Statement} (h : st.isClosed = true) :
    st.stopsName = true := by
  obtain ⟨sql, params⟩ := st
  cases sql with
  | nil => rfl
  | cons b s =>
    obtain rfl : b = 41 := eq_of_beq h
    rfl

namespace Fragment

/-- The statement that begins with a fragment and goes on with another statement. -/
def before (f : Fragment) (st : Statement) : Statement :=
  ⟨f.sql ++ st.sql, f.params ++ st.params⟩

/-- A statement that begins with two fragments begins with the first and goes on with the second. -/
@[simp] theorem before_append (f g : Fragment) (st : Statement) :
    (f ++ g).before st = f.before (g.before st) := by
  simp only [before, sql_append, params_append, List.append_assoc]

@[simp] theorem before_parens (f : Fragment) (st : Statement) :
    f.parens.before st = (word "(").before (f.before ((word ")").before st)) := by
  rw [parens, before_append, before_append]

end Fragment

/-! ## The reader -/

namespace Reader

open Fragment

/-- Takes a text from the front. -/
def expect : Bytes → Statement → Option Statement
  | [], st => some st
  | _ :: _, ⟨[], _⟩ => none
  | b :: s, ⟨c :: t, vs⟩ => if b = c then expect s ⟨t, vs⟩ else none

/-- Takes the first of some words that the statement begins with. -/
def choose {α : Type} (text : α → Bytes) : List α → Statement → Option (α × Statement)
  | [], _ => none
  | a :: as, st =>
    match expect (text a) st with
    | some st' => some (a, st')
    | none => choose text as st

/-- Takes a parameter. -/
def value : Statement → Option (Value × Statement)
  | ⟨_, []⟩ => none
  | ⟨t, v :: vs⟩ => some (v, ⟨t, vs⟩)

/-- What an operand that is no name can begin with. -/
inductive Head where
  /-- the opposite of what follows in parentheses -/
  | negation
  /-- what follows in parentheses -/
  | group
  /-- the literal NULL -/
  | null
  /-- a bound value -/
  | value
  /-- a function of what follows in parentheses -/
  | call (fn : TextFunction)
  /-- a function over the rows of a group -/
  | aggregate (fn : Aggregate)

/-- The text of a head. -/
def Head.text : Head → Bytes
  | .negation => ascii "NOT ("
  | .group => ascii "("
  | .null => ascii "NULL"
  | .value => ascii "?"
  | .call fn => fn.text ++ ascii "("
  | .aggregate fn => fn.text ++ ascii "("

/-- All heads. -/
def heads : List Head :=
  [.negation, .group, .null, .value, .call .lower, .call .upper, .aggregate .count,
    .aggregate .sum, .aggregate .avg, .aggregate .min, .aggregate .max]

/-- What an operand can be followed by. -/
inductive Link where
  /-- the second operand of arithmetic -/
  | arith (op : ArithOp)
  /-- the other side of a comparison -/
  | compare (op : CompareOp)
  /-- a second predicate -/
  | logic (op : LogicOp)
  /-- nothing: the operand is checked for NULL -/
  | nullCheck (negated : Bool)
  /-- a pattern -/
  | like
  /-- the values to look for -/
  | oneOf

/-- The text of a link. -/
def Link.text : Link → Bytes
  | .arith op => ascii " " ++ op.text ++ ascii " "
  | .compare op => ascii " " ++ op.text ++ ascii " "
  | .logic op => ascii " " ++ op.text ++ ascii " "
  | .nullCheck negated => ascii (if negated then " IS NOT NULL" else " IS NULL")
  | .like => ascii " LIKE ?"
  | .oneOf => ascii " IN ("

/-- All links. -/
def links : List Link :=
  [.arith .add, .arith .sub, .arith .mul, .arith .div, .compare .eq, .compare .ne, .compare .lt,
    .compare .le, .compare .gt, .compare .ge, .logic .and, .logic .or, .nullCheck false,
    .nullCheck true, .like, .oneOf]

/-- Reads a form from the front of a statement, and gives the statement that is left. -/
abbrev Read : Type := Statement → Option (NormalForm Bytes × Statement)

/-- Reads a form and the parenthesis that closes it. -/
def readGroup (read : Read) : Read := fun st => do
  let (a, st) ← read st
  let st ← expect (ascii ")") st
  return (a, st)

/-- Reads what a head begins. -/
def readFrom (read : Read) : Head → Read
  | .negation, st => (readGroup read st).map fun (a, st) => (.not a, st)
  | .group, st => readGroup read st
  | .null, st => some (.literal .null, st)
  | .value, st => (value st).map fun (v, st) => (.literal v, st)
  | .call fn, st => (readGroup read st).map fun (a, st) => (.call fn a, st)
  | .aggregate fn, st =>
    match readGroup read st with
    | some (a, st) => some (.aggregate fn a, st)
    | none => (expect (ascii "*)") st).map fun st => (.countRows, st)

/-- Reads an operand. -/
def readOperand (read : Read) : Read := fun st =>
  if st.startsName then
    some (.column (st.sql.takeWhile Byte.isName), ⟨st.sql.dropWhile Byte.isName, st.params⟩)
  else (choose Head.text heads st).bind fun (h, st) => readFrom read h st

/-- Reads an item of a list. -/
def readItem (st : Statement) : Option (Value × Statement) :=
  match expect (ascii "NULL") st with
  | some st => some (.null, st)
  | none => (expect (ascii "?") st).bind value

/-- Reads the items of a list after its first, and the parenthesis that closes it. -/
def readItems : Nat → Statement → Option (List Value × Statement)
  | 0, _ => none
  | n + 1, st =>
    match expect (ascii ")") st with
    | some st => some ([], st)
    | none => do
      let st ← expect (ascii ", ") st
      let (v, st) ← readItem st
      let (vs, st) ← readItems n st
      return (v :: vs, st)

/-- Reads a list and the parenthesis that closes it. -/
def readList (n : Nat) (st : Statement) : Option (List Value × Statement) :=
  match expect (ascii ")") st with
  | some st => some ([], st)
  | none => do
    let (v, st) ← readItem st
    let (vs, st) ← readItems n st
    return (v :: vs, st)

/-- Reads what a link goes on with after the operand `l`. -/
def readLink (read : Read) (n : Nat) (l : NormalForm Bytes) : Link → Read
  | .arith op, st => (readOperand read st).map fun (r, st) => (.arith op l r, st)
  | .compare op, st => (readOperand read st).map fun (r, st) => (.compare op l r, st)
  | .logic op, st => (readOperand read st).map fun (r, st) => (.logic op l r, st)
  | .nullCheck negated, st => some (.nullCheck negated l, st)
  | .like, st =>
    match value st with
    | some (.text pattern, st) => some (.like l pattern, st)
    | _ => none
  | .oneOf, st => (readList n st).map fun (vs, st) => (.oneOf l vs, st)

/-- Reads a form that is nested at most so deep. -/
def read : Nat → Read
  | 0, _ => none
  | n + 1, st =>
    (readOperand (read n) st).bind fun (l, st) =>
      match choose Link.text links st with
      | none => some (l, st)
      | some (k, st) => readLink (read n) n l k st

/-! ## What each part reads -/

/-- A word that stands in front is taken off. -/
theorem expect_ofText (s : Bytes) (st : Statement) :
    expect s ((ofText s).before st) = some st := by
  induction s with
  | nil => rfl
  | cons b s ih =>
    have hcons : (ofText (b :: s)).before st = ⟨b :: ((ofText s).before st).sql, st.params⟩ := rfl
    rw [hcons, expect, if_pos rfl]
    exact ih

/-- No head is the beginning of another, so the right one is chosen. -/
theorem choose_head (h : Head) (st : Statement) :
    choose Head.text heads ((ofText h.text).before st) = some (h, st) := by
  cases h with
  | negation | group | null | value => rfl
  | call fn => cases fn <;> rfl
  | aggregate fn => cases fn <;> rfl

/-- No link is the beginning of another. -/
theorem choose_link (k : Link) (st : Statement) :
    choose Link.text links ((ofText k.text).before st) = some (k, st) := by
  cases k with
  | arith op => cases op <;> rfl
  | compare op => cases op <;> rfl
  | logic op => cases op <;> rfl
  | nullCheck negated => cases negated <;> rfl
  | like | oneOf => rfl

/-- Nothing is linked where a form is closed. -/
theorem choose_link_of_isClosed {st : Statement} (h : st.isClosed = true) :
    choose Link.text links st = none := by
  obtain ⟨sql, params⟩ := st
  cases sql with
  | nil => rfl
  | cons b s =>
    obtain rfl : b = 41 := eq_of_beq h
    rfl

/-- No operator begins with a byte of a name. -/
theorem stopsName_link (k : Link) (st : Statement) :
    ((ofText k.text).before st).stopsName = true := by
  cases k with
  | nullCheck negated => cases negated <;> rfl
  | arith | compare | logic | like | oneOf => rfl

/-- What an operand begins with says how it is read. -/
theorem readOperand_head (read : Read) (h : Head) (st : Statement) :
    readOperand read ((ofText h.text).before st) = readFrom read h st := by
  have hname : ((ofText h.text).before st).startsName = false := by
    cases h with
    | negation | group | null | value => rfl
    | call fn => cases fn <;> rfl
    | aggregate fn => cases fn <;> rfl
  rw [readOperand, hname, choose_head]
  rfl

/-- A name is read up to the first byte that is part of no name. -/
theorem readOperand_column (read : Read) {n : Bytes} {st : Statement} (hn : n.isName = true)
    (hst : st.stopsName = true) :
    readOperand read ((ofText n).before st) = some (.column n, st) := by
  obtain ⟨sql, params⟩ := st
  cases n with
  | nil => cases hn
  | cons b s =>
    obtain ⟨hb, hs⟩ := Bool.and_eq_true_iff.1 hn
    have hall : ∀ c ∈ b :: s, Byte.isName c = true := by
      refine List.forall_mem_cons.2 ⟨?_, List.all_eq_true.1 hs⟩
      rw [Byte.isName, hb]
      rfl
    -- what follows begins with no byte of a name, so the name takes nothing of it
    have hstop : sql.takeWhile Byte.isName = [] ∧ sql.dropWhile Byte.isName = sql := by
      cases sql with
      | nil => exact ⟨rfl, rfl⟩
      | cons c t =>
        have hc : Byte.isName c = false := by simpa [Statement.stopsName] using hst
        exact ⟨by rw [List.takeWhile_cons, hc]; rfl, by rw [List.dropWhile_cons, hc]; rfl⟩
    have hbefore : (ofText (b :: s)).before ⟨sql, params⟩ = ⟨(b :: s) ++ sql, params⟩ := by
      rw [before, sql_ofText, params_ofText]
      rfl
    have hstarts : Statement.startsName ⟨(b :: s) ++ sql, params⟩ = true := hb
    rw [hbefore, readOperand, if_pos hstarts, List.takeWhile_append_of_pos hall,
      List.dropWhile_append_of_pos hall, hstop.1, hstop.2, List.append_nil]

/-- The reader gives back the form, from every statement that begins with it and is closed there. -/
def Reads (read : Read) (a : NormalForm Bytes) : Prop :=
  ∀ st : Statement, st.isClosed = true → read (a.write.before st) = some (a, st)

/-- The reader gives back the form as an operand, if it needs no parentheses there. -/
def ReadsBare (read : Read) (a : NormalForm Bytes) : Prop :=
  a.isCompound = false → ∀ st : Statement, st.stopsName = true →
    readOperand read (a.write.before st) = some (a, st)

variable {read : Read} {a : NormalForm Bytes}

/-- A fragment that is read back is so in parentheses, too. -/
theorem Reads.group (h : Reads read a) (st : Statement) :
    readGroup read (a.write.before ((word ")").before st)) = some (a, st) := by
  rw [readGroup, h _ rfl]
  exact congrArg (Option.bind · fun st => some (a, st)) (expect_ofText (ascii ")") st)

/-- An operand in parentheses. -/
theorem Reads.parens (h : Reads read a) (st : Statement) :
    readOperand read (a.write.parens.before st) = some (a, st) := by
  rw [before_parens]
  exact (readOperand_head read .group _).trans (h.group st)

/-- An operand, with parentheses if it needs them. -/
theorem Reads.operand (h : Reads read a) (hbare : ReadsBare read a) {st : Statement}
    (hst : st.stopsName = true) :
    readOperand read ((parensIf a.isCompound a.write).before st) = some (a, st) := by
  cases ha : a.isCompound with
  | true => exact h.parens st
  | false => exact hbare ha st hst

/-! ### Lists of constants -/

/-- A constant of a list is a NULL or a placeholder with its value. -/
theorem readItem_constant (v : Value) (st : Statement) :
    readItem ((Expr.constant v).before st) = some (v, st) := by
  cases v <;> rfl

/-- A list is not at its end where a constant stands. -/
theorem expect_close_constant (v : Value) (st : Statement) :
    expect (ascii ")") ((Expr.constant v).before st) = none := by
  cases v <;> rfl

/-- The values of a list are read up to the parenthesis that closes it. The induction is on the
values; one more step than there are values is enough. -/
theorem readItems_write {n : Nat} {vs : List Value} (hn : vs.length < n) (st : Statement) :
    readItems n (before ((vs.map Expr.constant).flatMap (word ", " ++ ·)) ((word ")").before st)) =
      some (vs, st) := by
  induction vs generalizing n with
  | nil =>
    obtain ⟨m, rfl⟩ := Nat.exists_eq_succ_of_ne_zero (Nat.ne_of_gt hn)
    rfl
  | cons v vs ih =>
    obtain ⟨m, rfl⟩ := Nat.exists_eq_succ_of_ne_zero (Nat.ne_of_gt (Nat.zero_lt_of_lt hn))
    rw [List.map_cons, List.flatMap_cons, before_append, before_append, readItems]
    have hclose : ∀ st, expect (ascii ")") ((word ", ").before st) = none := fun _ => rfl
    have hcomma : ∀ st, expect (ascii ", ") ((word ", ").before st) = some st :=
      expect_ofText (ascii ", ")
    simp [hclose, hcomma, readItem_constant, ih (Nat.lt_of_succ_lt_succ hn)]

/-- A list of constants is read up to the parenthesis that closes it. -/
theorem readList_write {n : Nat} {vs : List Value} (hn : vs.length ≤ n) (st : Statement) :
    readList n ((joined (word ", ") (vs.map Expr.constant)).before ((word ")").before st)) =
      some (vs, st) := by
  cases vs with
  | nil => rfl
  | cons v vs =>
    rw [List.map_cons, joined, Bytes.flatten_intersperse_cons, before_append, readList]
    simp [expect_close_constant, readItem_constant, readItems_write hn]

/-! ### Forms -/

/-- An operand that is closed is all there is. -/
theorem read_of_isClosed {n : Nat} {st st' : Statement}
    (h : readOperand (Reader.read n) st = some (a, st')) (hst' : st'.isClosed = true) :
    Reader.read (n + 1) st = some (a, st') := by
  simp only [Reader.read, h, Option.bind_some, choose_link_of_isClosed hst']

/-- An operand that a link follows is part of what the link makes of it. -/
theorem read_of_link {n : Nat} {st st' : Statement} {k : Link}
    (h : readOperand (Reader.read n) st = some (a, (ofText k.text).before st')) :
    Reader.read (n + 1) st = readLink (Reader.read n) n a k st' := by
  simp only [Reader.read, h, Option.bind_some, choose_link]

/-- Two operands with a link between them. -/
theorem read_pair {n : Nat} {l r : NormalForm Bytes} {st : Statement} (k : Link)
    (hl : ReadsBare (Reader.read n) l ∧ Reads (Reader.read n) l)
    (hr : ReadsBare (Reader.read n) r ∧ Reads (Reader.read n) r) (hst : st.isClosed = true) :
    Reader.read (n + 1) ((parensIf l.isCompound l.write).before ((ofText k.text).before
        ((parensIf r.isCompound r.write).before st))) =
      readLink (Reader.read n) n l k ((parensIf r.isCompound r.write).before st) ∧
    readOperand (Reader.read n) ((parensIf r.isCompound r.write).before st) = some (r, st) :=
  ⟨read_of_link (hl.2.operand hl.1 (stopsName_link k _)),
    hr.2.operand hr.1 (Statement.stopsName_of_isClosed hst)⟩

/-- No form begins with a star. -/
theorem read_star (n : Nat) (st : Statement) : Reader.read n ((word "*)").before st) = none := by
  cases n <;> rfl

theorem before_ofText_ofText (s t : Bytes) (st : Statement) :
    (ofText s).before ((ofText t).before st) = (ofText (s ++ t)).before st := by
  simp only [before, sql_ofText, params_ofText, List.append_assoc, List.nil_append]

end Reader

namespace NormalForm

open Fragment Reader

/-- The form can be read back: its columns have plain names, and it has neither a reference to a
group key nor a fragment of the caller. -/
def Readable : NormalForm Bytes → Prop
  | .column name => name.isName = true
  | .literal _ | .countRows => True
  | .arith _ l r | .logic _ l r | .compare _ l r => l.Readable ∧ r.Readable
  | .call _ a | .aggregate _ a | .nullCheck _ a | .not a | .like a _ | .oneOf a _ => a.Readable
  | .key _ | .raw .. => False

/-- A bound on how deep the reader must go, and on how long its lists are. -/
def size : NormalForm Bytes → Nat
  | .column _ | .literal _ | .countRows | .key _ | .raw .. => 0
  | .arith _ l r | .logic _ l r | .compare _ l r => l.size + r.size + 1
  | .call _ a | .aggregate _ a | .nullCheck _ a | .not a | .like a _ => a.size + 1
  | .oneOf a items => a.size + items.length + 1

/-- The reader that goes so deep reads the form, bare where it can stand bare. -/
def ReadsFrom (n : Nat) (a : NormalForm Bytes) : Prop :=
  ReadsBare (read n) a ∧ Reads (read (n + 1)) a

/-- A form that needs no parentheses is read as the operand it is. -/
theorem readsFrom_of_bare {n : Nat} {a : NormalForm Bytes}
    (hbare : ∀ st : Statement, st.stopsName = true →
      readOperand (read n) (a.write.before st) = some (a, st)) : ReadsFrom n a :=
  ⟨fun _ => hbare, fun st hst =>
    read_of_isClosed (hbare st (Statement.stopsName_of_isClosed hst)) hst⟩

/-- A form that needs parentheses is never met without them as an operand. -/
theorem readsFrom_of_compound {n : Nat} {a : NormalForm Bytes} (h : a.isCompound = true)
    (hreads : ∀ st : Statement, st.isClosed = true →
      read (n + 1) (a.write.before st) = some (a, st)) : ReadsFrom n a :=
  ⟨fun h' => absurd (h.symm.trans h') (by decide), hreads⟩

/-- A part that is read at every depth from its size on is read one step below the whole. -/
theorem reads_part {n : Nat} {a : NormalForm Bytes} (h : ∀ m, a.size ≤ m → ReadsFrom m a)
    (hn : a.size < n) : ReadsBare (read n) a ∧ Reads (read n) a := by
  obtain ⟨m, rfl⟩ := Nat.exists_eq_succ_of_ne_zero (Nat.ne_zero_of_lt hn)
  exact ⟨(h _ (Nat.le_of_lt hn)).1, (h m (Nat.le_of_lt_succ hn)).2⟩

/-- **The reader reads what was written.** The induction is on the form: what stands in parentheses
is read one step deeper, and what stands bare is told by its first byte. -/
theorem readsFrom_of_size_le {a : NormalForm Bytes} (ha : a.Readable) (n : Nat)
    (hn : a.size ≤ n) : ReadsFrom n a := by
  induction a generalizing n with
  | column name =>
    exact readsFrom_of_bare fun st hst => readOperand_column (read n) ha hst
  | literal v =>
    refine readsFrom_of_bare fun st _ => ?_
    cases v with
    | null => exact readOperand_head (read n) .null st
    | integer m => exact readOperand_head (read n) .value ⟨st.sql, .integer m :: st.params⟩
    | real x => exact readOperand_head (read n) .value ⟨st.sql, .real x :: st.params⟩
    | text s => exact readOperand_head (read n) .value ⟨st.sql, .text s :: st.params⟩
  | countRows =>
    refine readsFrom_of_bare fun st _ => ?_
    have hhead := readOperand_head (read n) (.aggregate .count) ((word "*)").before st)
    -- an argument is tried before the star, and there is none
    have hnone : readGroup (read n) ((word "*)").before st) = none := by
      rw [readGroup, read_star]
      rfl
    have hstar : expect (ascii "*)") ((word "*)").before st) = some st := expect_ofText _ st
    rw [readFrom, hnone, hstar] at hhead
    exact hhead
  | call fn a ih =>
    refine readsFrom_of_bare fun st _ => ?_
    obtain ⟨-, hreads⟩ := reads_part (ih ha) hn
    rw [write, before_append, before_parens, word, before_ofText_ofText]
    refine (readOperand_head (read n) (.call fn) _).trans ?_
    rw [readFrom, hreads.group]
    rfl
  | aggregate fn a ih =>
    refine readsFrom_of_bare fun st _ => ?_
    obtain ⟨-, hreads⟩ := reads_part (ih ha) hn
    rw [write, before_append, before_parens, word, before_ofText_ofText]
    refine (readOperand_head (read n) (.aggregate fn) _).trans ?_
    rw [readFrom, hreads.group]
  | key index => exact ha.elim
  | arith op l r ihl ihr =>
    refine readsFrom_of_compound rfl fun st hst => ?_
    have hlr : l.size < n ∧ r.size < n := by rw [size] at hn; omega
    obtain ⟨hlink, hright⟩ := read_pair (.arith op) (reads_part (ihl ha.1) hlr.1)
      (reads_part (ihr ha.2) hlr.2) hst
    rw [write, before_append, before_append]
    refine hlink.trans ?_
    rw [readLink, hright]
    rfl
  | compare op l r ihl ihr =>
    refine readsFrom_of_compound rfl fun st hst => ?_
    have hlr : l.size < n ∧ r.size < n := by rw [size] at hn; omega
    obtain ⟨hlink, hright⟩ := read_pair (.compare op) (reads_part (ihl ha.1) hlr.1)
      (reads_part (ihr ha.2) hlr.2) hst
    rw [write, before_append, before_append]
    refine hlink.trans ?_
    rw [readLink, hright]
    rfl
  | logic op l r ihl ihr =>
    -- both sides stand in parentheses, compound or not
    refine readsFrom_of_compound rfl fun st _ => ?_
    have hlr : l.size < n ∧ r.size < n := by rw [size] at hn; omega
    obtain ⟨-, hl⟩ := reads_part (ihl ha.1) hlr.1
    obtain ⟨-, hr⟩ := reads_part (ihr ha.2) hlr.2
    rw [write, before_append, before_append]
    refine (read_of_link (k := .logic op) (hl.parens _)).trans ?_
    rw [readLink, hr.parens]
    rfl
  | nullCheck negated a ih =>
    refine readsFrom_of_compound rfl fun st _ => ?_
    obtain ⟨hbare, hreads⟩ := reads_part (ih ha) hn
    rw [write, before_append]
    exact read_of_link (k := .nullCheck negated)
      (hreads.operand hbare (stopsName_link (.nullCheck negated) st))
  | not a ih =>
    -- a negation begins with a head of its own, so it is read as an operand without a link
    refine readsFrom_of_compound rfl fun st hst => ?_
    obtain ⟨-, hreads⟩ := reads_part (ih ha) hn
    refine read_of_isClosed ?_ hst
    rw [write, before_append, before_parens]
    refine (readOperand_head (read n) .negation _).trans ?_
    rw [readFrom, hreads.group]
    rfl
  | like a pattern ih =>
    refine readsFrom_of_compound rfl fun st _ => ?_
    obtain ⟨hbare, hreads⟩ := reads_part (ih ha) hn
    rw [write, before_append, before_append]
    exact read_of_link (k := .like)
      (hreads.operand hbare (stopsName_link .like ⟨st.sql, .text pattern :: st.params⟩))
  | oneOf a items ih =>
    refine readsFrom_of_compound rfl fun st _ => ?_
    -- the size counts the items too, so the depth is enough for the list
    have hitems : a.size < n ∧ items.length ≤ n := by rw [size] at hn; omega
    obtain ⟨hbare, hreads⟩ := reads_part (ih ha) hitems.1
    rw [write, before_append, before_append, before_parens]
    refine (read_of_link (k := .oneOf) (hreads.operand hbare (stopsName_link .oneOf _))).trans ?_
    rw [readLink, readList_write hitems.2]
    rfl
  | raw sql params => exact ha.elim

/-- **No two forms are written alike**: one reader gives back both. -/
theorem write_injective {a b : NormalForm Bytes} (ha : a.Readable) (hb : b.Readable)
    (hsql : a.write.sql = b.write.sql) (hparams : a.write.params = b.write.params) : a = b := by
  -- one depth that is enough for both
  have hreada := (readsFrom_of_size_le ha _ (Nat.le_max_left a.size b.size)).2 ⟨[], []⟩ rfl
  have hreadb := (readsFrom_of_size_le hb _ (Nat.le_max_right a.size b.size)).2 ⟨[], []⟩ rfl
  have hsame : a.write.before ⟨[], []⟩ = b.write.before ⟨[], []⟩ := by
    rw [before, before, hsql, hparams]
  rw [hsame, hreadb] at hreada
  exact (Prod.mk.inj (Option.some.inj hreada)).1.symm

end NormalForm

/-! ## Expressions that are emitted alike -/

namespace Expr

open Fragment NormalForm

/-- The normal form of an expression without keys and fragments of the caller can be read back. -/
theorem readable_normal {name : ColumnRef → Bytes} {e : Expr} (he : e.isPlain = true)
    (hname : ∀ c ∈ e.normal.columns, (name c).isName = true) : (e.normal.map name).Readable := by
  induction e with
  | column owner property => exact hname _ (List.mem_singleton.2 rfl)
  | literal v => trivial
  | countRows => trivial
  | arith op l r ihl ihr =>
    obtain ⟨hpl, hpr⟩ := Bool.and_eq_true_iff.1 he
    obtain ⟨hl, hr⟩ := List.forall_mem_append.1 hname
    exact ⟨ihl hpl hl, ihr hpr hr⟩
  | logic op l r ihl ihr =>
    obtain ⟨hpl, hpr⟩ := Bool.and_eq_true_iff.1 he
    obtain ⟨hl, hr⟩ := List.forall_mem_append.1 hname
    exact ⟨ihl hpl hl, ihr hpr hr⟩
  | compare op l r ihl ihr =>
    obtain ⟨hpl, hpr⟩ := Bool.and_eq_true_iff.1 he
    -- of a null check only the side that is written needs to be readable
    rcases normal_compare_cases op l r with h | ⟨negated, h | h⟩
    · rw [h] at hname ⊢
      obtain ⟨hl, hr⟩ := List.forall_mem_append.1 hname
      exact ⟨ihl hpl hl, ihr hpr hr⟩
    · rw [h] at hname ⊢
      exact ihl hpl hname
    · rw [h] at hname ⊢
      exact ihr hpr hname
  | call fn e ih => exact ih he hname
  | aggregate fn e ih => exact ih he hname
  | truth e ih => exact ih he hname
  | nullCheck negated e ih => exact ih he hname
  | not e ih => exact ih he hname
  | like e text anchor ih => exact ih he hname
  | oneOf e items ih => exact ih he hname
  | key index => cases he
  | raw sql params => cases he

/-- **Emission loses nothing but what the normal form forgets.** In a scope that gives different
columns different plain names, two expressions with the same SQL and the same parameters have the
same normal form. What is emitted is the writing of the normal form with names in place of columns;
`write_injective` reads it back, and the names lead back to the columns. -/
theorem normal_eq_of_emit {Γ : Catalog} {s : Scope} {e₁ e₂ : Expr} {f₁ f₂ : Fragment}
    (h₁ : e₁.isPlain = true) (h₂ : e₂.isPlain = true)
    (hname : ∀ c ∈ e₁.references.columns ++ e₂.references.columns, ∀ n,
      s.resolve Γ c.owner c.property = .ok n → n.isName = true)
    (hdistinct : ∀ c ∈ e₁.references.columns ++ e₂.references.columns,
      ∀ d ∈ e₁.references.columns ++ e₂.references.columns, ∀ n,
      s.resolve Γ c.owner c.property = .ok n → s.resolve Γ d.owner d.property = .ok n → c = d)
    (hf₁ : e₁.emit Γ s = .ok f₁) (hf₂ : e₂.emit Γ s = .ok f₂)
    (hsql : f₁.statement.sql = f₂.statement.sql)
    (hparams : f₁.statement.params = f₂.statement.params) : e₁.normal = e₂.normal := by
  obtain ⟨rfl, hc₁⟩ := emitWith_eq_write h₁ hf₁
  obtain ⟨rfl, hc₂⟩ := emitWith_eq_write h₂ hf₂
  have hmem₁ : ∀ c ∈ e₁.normal.columns, c ∈ e₁.references.columns ++ e₂.references.columns :=
    fun c hc => List.mem_append_left _ (mem_references_of_mem_normal hc)
  have hmem₂ : ∀ c ∈ e₂.normal.columns, c ∈ e₁.references.columns ++ e₂.references.columns :=
    fun c hc => List.mem_append_right _ (mem_references_of_mem_normal hc)
  have hwritten : e₁.normal.map (s.nameOf Γ) = e₂.normal.map (s.nameOf Γ) :=
    write_injective (readable_normal h₁ fun c hc => hname c (hmem₁ c hc) _ (hc₁ c hc))
      (readable_normal h₂ fun c hc => hname c (hmem₂ c hc) _ (hc₂ c hc)) hsql hparams
  -- the names can be undone on the columns that the two expressions refer to
  let columns : Set ColumnRef := {c | c ∈ e₁.normal.columns ++ e₂.normal.columns}
  have hresolve : ∀ c ∈ columns, c ∈ e₁.references.columns ++ e₂.references.columns ∧
      s.resolve Γ c.owner c.property = .ok (s.nameOf Γ c) := by
    intro c hc
    rcases List.mem_append.1 hc with hc | hc
    · exact ⟨hmem₁ c hc, hc₁ c hc⟩
    · exact ⟨hmem₂ c hc, hc₂ c hc⟩
  have hinj : Set.InjOn (s.nameOf Γ) columns := by
    intro c hc d hd hcd
    obtain ⟨hcmem, hcname⟩ := hresolve c hc
    obtain ⟨hdmem, hdname⟩ := hresolve d hd
    exact hdistinct c hcmem d hdmem _ hcname (hcd ▸ hdname)
  have : Nonempty ColumnRef := ⟨⟨0, []⟩⟩
  have hback := hinj.leftInvOn_invFunOn
  calc e₁.normal
      = (e₁.normal.map (s.nameOf Γ)).map (Function.invFunOn (s.nameOf Γ) columns) :=
        (map_map_eq_self fun c hc => hback (List.mem_append_left _ hc)).symm
    _ = (e₂.normal.map (s.nameOf Γ)).map (Function.invFunOn (s.nameOf Γ) columns) := by
        rw [hwritten]
    _ = e₂.normal := map_map_eq_self fun c hc => hback (List.mem_append_right _ hc)

/-! ### Two ways to one text -/

/-- A table of members with a name and an age. -/
def members : Catalog :=
  .single (ascii "members") [(ascii "Name", ascii "name"), (ascii "Age", ascii "age")]

/-- A comparison with NULL and a text looked for anywhere. -/
def compared : Expr :=
  .logic .and (.compare .eq (.literal .null) (.column 0 (ascii "Age")))
    (.like (.column 0 (ascii "Name")) (ascii "a") .anywhere)

/-- A null check and the same pattern with its first wildcard in the text. -/
def tested : Expr :=
  .logic .and (.nullCheck false (.truth (.column 0 (ascii "Age"))))
    (.like (.column 0 (ascii "Name")) (ascii "%a") .start)

/-- The two predicates are different trees with one text, and so they have one normal form. -/
theorem normal_eq_of_emit_members :
    compared ≠ tested ∧
    (∃ f₁ f₂, compared.emit members { visible := [0] } = .ok f₁ ∧
      tested.emit members { visible := [0] } = .ok f₂ ∧
      f₁.statement.sql = f₂.statement.sql ∧ f₁.statement.params = f₂.statement.params) ∧
    compared.normal = tested.normal := by
  have hcases : ∀ c ∈ compared.references.columns ++ tested.references.columns,
      c = ⟨0, ascii "Age"⟩ ∨ c = ⟨0, ascii "Name"⟩ := by decide
  refine ⟨by decide, ⟨_, _, rfl, rfl, rfl, rfl⟩, ?_⟩
  refine normal_eq_of_emit (Γ := members) (s := { visible := [0] }) rfl rfl ?_ ?_ rfl rfl rfl rfl
  · intro c hc n hn
    rcases hcases c hc with rfl | rfl
    · obtain rfl : ascii "age" = n := Except.ok.inj hn
      rfl
    · obtain rfl : ascii "name" = n := Except.ok.inj hn
      rfl
  · intro c hc d hd n hcn hdn
    rcases hcases c hc with rfl | rfl <;> rcases hcases d hd with rfl | rfl
    · rfl
    · obtain rfl : ascii "age" = n := Except.ok.inj hcn
      exact absurd (Except.ok.inj hdn) (by decide)
    · obtain rfl : ascii "name" = n := Except.ok.inj hcn
      exact absurd (Except.ok.inj hdn) (by decide)
    · rfl

end Expr

end SqlPlan
