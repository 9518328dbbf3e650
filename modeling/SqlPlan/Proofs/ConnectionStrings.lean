import SqlPlan.Conninfo
import SqlPlan.Proofs.Numerals
import SqlPlan.Proofs.Outcome
import SqlPlan.Proofs.Pieces

/-!
# What a connection string is read as

A text with one slash falls into pieces at its colons and question marks (`Conninfo.Cut`). The host,
a port and the arguments are read off the first pieces (`Conninfo.Cut.Reads`), and
`Conninfo.parse_eq_ok_iff` says what comes of it for every text.

A spelling of a connection string (`Conninfo.Spelling`) has a port or none and a list of arguments
or none. What is spelled is read back (`Conninfo.parse_of_spells`). The other way round a text may
be accepted that spells no connection string, since pieces further behind are not looked at, nor
what stands behind the digits of a port. `Conninfo.readWhole_iff` says of which texts nothing is
dropped.
-/

namespace SqlPlan.Conninfo

open Decimal (Begins Fits32 IsNumeral)

/-! ## Arguments -/

/-- The two things that an argument can give. -/
inductive Credential where
  /-- who asks -/
  | user
  /-- the password -/
  | password
deriving DecidableEq

/-- The name of an argument. -/
def Credential.name : Credential → Bytes
  | .user => ascii "username"
  | .password => ascii "password"

/-- An argument: what it gives, and the value. -/
structure Argument where
  /-- what the argument gives -/
  field : Credential
  /-- the value that it gives -/
  value : Bytes

/-- The text of an argument. -/
def Argument.text (a : Argument) : Bytes := a.field.name ++ Byte.equals :: a.value

/-- The text of a list of arguments. -/
def Argument.list (as : List Argument) : Bytes := Bytes.joined [ampersand] (as.map Argument.text)

/-- What a connection string says of a credential. -/
def get (info : Conninfo) : Credential → Bytes
  | .user => info.user
  | .password => info.password

/-- The connection string with one more argument. -/
def given (info : Conninfo) (a : Argument) : Conninfo :=
  match a.field with
  | .user => { info with user := a.value }
  | .password => { info with password := a.value }

variable {info info' : Conninfo} {a : Argument} {as bs : List Argument} {c : Credential}
  {s p l rest : Bytes} {ps ss ls : List Bytes} {port : Int} {e : ConninfoError}

/-- A connection string is made up of its three fixed parts and what it says of the credentials. -/
theorem eq_of_get (hhost : info.host = info'.host) (hport : info.port = info'.port)
    (hdbname : info.dbname = info'.dbname) (hget : ∀ c, info.get c = info'.get c) :
    info = info' := by
  obtain ⟨host, port, dbname, user, password⟩ := info
  obtain ⟨host', port', dbname', user', password'⟩ := info'
  obtain rfl : host = host' := hhost
  obtain rfl : port = port' := hport
  obtain rfl : dbname = dbname' := hdbname
  obtain rfl : user = user' := hget .user
  obtain rfl : password = password' := hget .password
  rfl

/-- An argument gives its own credential and leaves the other one. -/
theorem get_given : (info.given a).get c = if a.field = c then a.value else info.get c := by
  obtain ⟨field, value⟩ := a
  cases field <;> cases c <;> rfl

theorem given_rest (info : Conninfo) (a : Argument) : (info.given a).host = info.host ∧
    (info.given a).port = info.port ∧ (info.given a).dbname = info.dbname := by
  obtain ⟨field, value⟩ := a
  cases field <;> exact ⟨rfl, rfl, rfl⟩

/-- Arguments leave the host, the port and the database as they are. -/
theorem foldl_given_rest (as : List Argument) (info : Conninfo) :
    (as.foldl given info).host = info.host ∧ (as.foldl given info).port = info.port ∧
      (as.foldl given info).dbname = info.dbname := by
  induction as generalizing info with
  | nil => exact ⟨rfl, rfl, rfl⟩
  | cons a as ih =>
    obtain ⟨hhost, hport, hdbname⟩ := given_rest info a
    rw [List.foldl_cons, ← hhost, ← hport, ← hdbname]
    exact ih (info.given a)

/-- What arguments say of a credential is in one of them, or none of them gives it. -/
theorem get_foldl_given (as : List Argument) (info : Conninfo) (c : Credential) :
    (∃ a ∈ as, a.field = c ∧ (as.foldl given info).get c = a.value) ∨
      (∀ a ∈ as, a.field ≠ c) ∧ (as.foldl given info).get c = info.get c := by
  induction as generalizing info with
  | nil => exact Or.inr ⟨fun a ha => absurd ha List.not_mem_nil, rfl⟩
  | cons a as ih =>
    rw [List.foldl_cons]
    rcases ih (info.given a) with ⟨b, hb, hfield, hget⟩ | ⟨hnone, hget⟩
    · exact Or.inl ⟨b, List.mem_cons_of_mem a hb, hfield, hget⟩
    · rw [hget, get_given]
      by_cases hfield : a.field = c
      · exact Or.inl ⟨a, List.mem_cons_self, hfield, if_pos hfield⟩
      · exact Or.inr ⟨List.forall_mem_cons.2 ⟨hfield, hnone⟩, if_neg hfield⟩

/-! ## Reading arguments -/

/-- A value **has no separator**, so that it can stand in an argument. -/
abbrev PlainValue (v : Bytes) : Prop :=
  slash ∉ v ∧ Byte.question ∉ v ∧ ampersand ∉ v ∧ Byte.equals ∉ v

/-- Neither of the two names has a separator. -/
theorem Credential.name_plain (c : Credential) : PlainValue c.name := by
  cases c <;> decide

/-- An argument is determined by its text: the two names differ in their first letter. -/
theorem Argument.text_injective : Function.Injective Argument.text := by
  rintro ⟨field, v⟩ ⟨field', w⟩ h
  cases field <;> cases field' <;> simp_all [Argument.text, Credential.name, ascii]

theorem Argument.text_ne_nil (a : Argument) : a.text ≠ [] :=
  List.append_ne_nil_of_right_ne_nil _ (List.cons_ne_nil _ _)

/-- A byte that is not in the name and not in the value is not in the text of an argument. -/
theorem Argument.not_mem_text {b : UInt8} (hname : b ∉ a.field.name) (hequals : b ≠ Byte.equals)
    (hvalue : b ∉ a.value) : b ∉ a.text := by
  rw [Argument.text, List.mem_append, List.mem_cons, not_or, not_or]
  exact ⟨hname, hequals, hvalue⟩

/-- The texts of arguments are found again in a list of them. -/
theorem split_list (h : ∀ a ∈ as, ampersand ∉ a.value) :
    Bytes.split ampersand (Argument.list as) = as.map Argument.text := by
  refine Bytes.split_joined (List.forall_mem_map.2 fun a ha => ?_) fun heq => ?_
  · exact Argument.not_mem_text a.field.name_plain.2.2.1 (by decide) (h a ha)
  · obtain ⟨a, -, ha⟩ := List.mem_map.1 (heq ▸ List.mem_singleton_self [])
    exact a.text_ne_nil ha

/-- Where no value has an ampersand, a list of arguments is determined by its text. -/
theorem list_injective (has : ∀ a ∈ as, ampersand ∉ a.value) (hbs : ∀ a ∈ bs, ampersand ∉ a.value)
    (h : Argument.list as = Argument.list bs) : as = bs := by
  refine List.map_injective_iff.2 Argument.text_injective ?_
  rw [← split_list has, h, split_list hbs]

/-- **An argument is read when it is the text of one**, and its value has no equals sign. -/
theorem argument_eq_ok_iff :
    argument info s = .ok info' ↔
      ∃ a : Argument, Byte.equals ∉ a.value ∧ s = a.text ∧ info' = info.given a := by
  constructor
  · intro h
    rw [argument] at h
    split at h
    · rename_i name v hsplit
      obtain ⟨rfl, -, hv⟩ := Bytes.split_eq_pair_iff.1 hsplit
      split at h
      · rename_i hname
        exact ⟨⟨.user, v⟩, hv, by rw [hname]; rfl, (Except.ok.inj h).symm⟩
      · split at h
        · rename_i hname
          exact ⟨⟨.password, v⟩, hv, by rw [hname]; rfl, (Except.ok.inj h).symm⟩
        · cases h
    · cases h
  · rintro ⟨⟨field, v⟩, hv, rfl, rfl⟩
    have hsplit := Bytes.split_eq_pair_iff.2 ⟨rfl, field.name_plain.2.2.2, hv⟩
    rw [argument, Argument.text, hsplit]
    cases field <;> rfl

/-- An argument that cannot be read is an invalid one, whatever is wrong with it. -/
theorem kind_of_argument (h : argument info s = .error e) : e.kind = .invalidArgument := by
  rw [argument] at h
  repeat' split at h
  all_goals cases h
  all_goals rfl

/-- Pieces are read as arguments when each of them is the text of one. The induction is on the
pieces, since a later argument replaces what an earlier one gave. -/
theorem foldlM_argument_eq_ok_iff :
    ss.foldlM argument info = .ok info' ↔ ∃ as : List Argument,
      (∀ a ∈ as, Byte.equals ∉ a.value) ∧ ss = as.map Argument.text ∧
        info' = as.foldl given info := by
  induction ss generalizing info with
  | nil =>
    rw [List.foldlM_nil, Except.pure_eq_ok]
    constructor
    · rintro rfl
      exact ⟨[], List.forall_mem_nil _, rfl, rfl⟩
    · rintro ⟨as, -, hnil, rfl⟩
      rw [List.map_eq_nil_iff.1 hnil.symm]
      rfl
  | cons s ss ih =>
    rw [List.foldlM_cons, Except.bind_eq_ok]
    constructor
    · rintro ⟨next, hs, hss⟩
      obtain ⟨a, ha, rfl, rfl⟩ := argument_eq_ok_iff.1 hs
      obtain ⟨as, has, rfl, rfl⟩ := ih.1 hss
      exact ⟨a :: as, List.forall_mem_cons.2 ⟨ha, has⟩, rfl, rfl⟩
    · rintro ⟨as, has, hcons, rfl⟩
      obtain ⟨a, as, rfl, rfl, rfl⟩ := List.map_eq_cons_iff.1 hcons.symm
      obtain ⟨ha, has⟩ := List.forall_mem_cons.1 has
      exact ⟨info.given a, argument_eq_ok_iff.2 ⟨a, ha, rfl, rfl⟩, ih.2 ⟨as, has, rfl, rfl⟩⟩

/-- The first piece that cannot be read decides about the error, which is of the same kind for
all. -/
theorem kind_of_foldlM_argument (h : ss.foldlM argument info = .error e) :
    e.kind = .invalidArgument := by
  induction ss generalizing info with
  | nil => cases h
  | cons s ss ih =>
    rw [List.foldlM_cons, Except.bind_eq_error] at h
    rcases h with hs | ⟨next, -, hss⟩
    · exact kind_of_argument hs
    · exact ih hss

/-- Without a question mark no piece is read, which is what splitting the empty text gives. -/
theorem readArguments_eq (info : Conninfo) (ls : List Bytes) :
    readArguments info ls = (Bytes.split ampersand (ls.headD [])).foldlM argument info := by
  cases ls <;> rfl

/-- The arguments are those of the first list, if there is one. -/
theorem readArguments_eq_ok_iff :
    readArguments info ls = .ok info' ↔ ∃ as : List Argument,
      (∀ a ∈ as, Byte.equals ∉ a.value ∧ ampersand ∉ a.value) ∧
      ls.headD [] = Argument.list as ∧ info' = as.foldl given info := by
  rw [readArguments_eq, foldlM_argument_eq_ok_iff]
  constructor
  · rintro ⟨as, has, hsplit, rfl⟩
    refine ⟨as, fun a ha => ⟨has a ha, fun hmem => ?_⟩, ?_, rfl⟩
    · have hpiece : a.text ∈ Bytes.split ampersand (ls.headD []) := by
        rw [hsplit]
        exact List.mem_map_of_mem ha
      exact Bytes.not_mem_of_mem_split hpiece (by simp [Argument.text, hmem])
    · rw [Argument.list, ← hsplit, Bytes.joined_split]
  · rintro ⟨as, has, hlist, rfl⟩
    refine ⟨as, fun a ha => (has a ha).1, ?_, rfl⟩
    rw [hlist, split_list fun a ha => (has a ha).2]

/-! ## Reading a port -/

/-- The pieces behind the host **have a port**, and there is a rest of the piece that it is in. -/
inductive HasPort : List Bytes → Int → Bytes → Prop where
  /-- the usual port -/
  | usual : HasPort [] 3306 []
  /-- the port that the first piece begins with -/
  | written {p : Bytes} {ps : List Bytes} {port : Int} {rest : Bytes} :
      Begins p port rest → Fits32 port → HasPort (p :: ps) port rest

/-- A port is read exactly where the pieces have one. What stands behind its digits does not
matter. -/
theorem readPort_eq_ok_iff : readPort ps = .ok port ↔ ∃ rest, HasPort ps port rest := by
  cases ps with
  | nil =>
    rw [readPort, Except.ok.injEq]
    constructor
    · rintro rfl
      exact ⟨[], .usual⟩
    · rintro ⟨_, ⟨⟩⟩
      rfl
  | cons p ps =>
    rw [readPort, Except.mapError_eq_ok, Decimal.readLeadingInt32_eq_ok_iff]
    refine exists_congr fun rest => ⟨fun h => .written h.1 h.2, fun h => ?_⟩
    cases h with
    | written hbegins hfits => exact ⟨hbegins, hfits⟩

/-- A port fails to be read with another class of error only if it is too large a number. -/
theorem kind_of_readPort (hfits : ∀ p ∈ ps.head?, ∀ n rest, Begins p n rest → Fits32 n)
    (h : readPort ps = .error e) : e.kind = .invalidArgument := by
  cases ps with
  | nil => cases h
  | cons p ps =>
    rw [readPort, Except.mapError_eq_error] at h
    obtain ⟨e', hread, rfl⟩ := h
    cases e' with
    | noDigits => rfl
    | outOfRange =>
      obtain ⟨n, rest, hbegins, hn⟩ := Decimal.readLeadingInt32_eq_outOfRange_iff.1 hread
      exact absurd (hfits p rfl n rest hbegins) hn

/-! ## Texts cut at their separators -/

/-- A text with one slash, **cut at its separators**: at the colons in front of the slash and at the
question marks behind it. -/
structure Cut where
  /-- what comes first -/
  host : Bytes
  /-- what follows each colon -/
  ports : List Bytes
  /-- what comes first behind the slash -/
  dbname : Bytes
  /-- what follows each question mark -/
  lists : List Bytes
  /-- no piece in front of the slash has a separator -/
  left_plain : ∀ p ∈ host :: ports, slash ∉ p ∧ colon ∉ p
  /-- no piece behind the slash has a separator -/
  right_plain : ∀ p ∈ dbname :: lists, slash ∉ p ∧ Byte.question ∉ p

namespace Cut

/-- The text in front of the slash. -/
def left (f : Cut) : Bytes := Bytes.joined [colon] (f.host :: f.ports)

/-- The text behind the slash. -/
def right (f : Cut) : Bytes := Bytes.joined [Byte.question] (f.dbname :: f.lists)

/-- The whole text. -/
def text (f : Cut) : Bytes := f.left ++ slash :: f.right

variable {f : Cut}

/-- The slash of a cut text is the only one: none stands in front of it. -/
theorem slash_not_mem_left (f : Cut) : slash ∉ f.left :=
  Bytes.not_mem_joined (by decide) fun p hp => (f.left_plain p hp).1

theorem slash_not_mem_right (f : Cut) : slash ∉ f.right :=
  Bytes.not_mem_joined (by decide) fun p hp => (f.right_plain p hp).1

/-- A text that is not malformed is one with a slash, cut at its separators. -/
theorem exists_of_parse (h : parse s ≠ .error (.malformed s)) : ∃ f : Cut, f.text = s := by
  rw [parse] at h
  split at h
  · rename_i left right hsplit
    obtain ⟨rfl, hleft, hright⟩ := Bytes.split_eq_pair_iff.1 hsplit
    obtain ⟨host, ports, hports⟩ := List.exists_cons_of_ne_nil (Bytes.pieces_ne_nil colon left)
    obtain ⟨dbname, lists, hlists⟩ :=
      List.exists_cons_of_ne_nil (Bytes.pieces_ne_nil Byte.question right)
    have hl : Bytes.joined [colon] (host :: ports) = left := hports ▸ Bytes.joined_pieces colon left
    have hr : Bytes.joined [Byte.question] (dbname :: lists) = right :=
      hlists ▸ Bytes.joined_pieces Byte.question right
    refine ⟨⟨host, ports, dbname, lists, fun p hp => ⟨fun hslash => ?_, ?_⟩,
      fun p hp => ⟨fun hslash => ?_, ?_⟩⟩, congrArg₂ (fun l r => l ++ slash :: r) hl hr⟩
    · exact hleft (hl ▸ Bytes.mem_joined_of_mem hp hslash)
    · exact Bytes.not_mem_of_mem_pieces (hports ▸ hp)
    · exact hright (hr ▸ Bytes.mem_joined_of_mem hp hslash)
    · exact Bytes.not_mem_of_mem_pieces (hlists ▸ hp)
  · exact absurd rfl h

/-- A cut text is read off its first pieces. -/
theorem parse_text (f : Cut) :
    parse f.text =
      if f.host = [] ∨ f.dbname = [] then .error (.malformed f.text)
      else readPort f.ports >>= fun port =>
        readArguments { host := f.host, port, dbname := f.dbname } f.lists := by
  have hslash : Bytes.split slash f.text = [f.left, f.right] :=
    Bytes.split_eq_pair_iff.2 ⟨rfl, f.slash_not_mem_left, f.slash_not_mem_right⟩
  have hhost : Bytes.split colon f.left = f.host :: f.ports ∨
      f.host = [] ∧ Bytes.split colon f.left = [] :=
    Bytes.split_joined_cons fun p hp => (f.left_plain p hp).2
  have hdbname : Bytes.split Byte.question f.right = f.dbname :: f.lists ∨
      f.dbname = [] ∧ Bytes.split Byte.question f.right = [] :=
    Bytes.split_joined_cons fun p hp => (f.right_plain p hp).2
  rw [parse, hslash]
  rcases hhost with hhost | ⟨hnil, hhost⟩
  · rcases hdbname with hdbname | ⟨hnil, hdbname⟩
    · simp only [hhost, hdbname, Bool.or_eq_true, List.isEmpty_iff]
      split <;> rfl
    · simp only [hhost, hdbname, if_pos (Or.inr hnil)]
  · simp only [hhost, if_pos (Or.inl hnil)]

/-- A cut text **is read** with a port and some arguments, and leaves a rest behind the port. -/
structure Reads (f : Cut) (port : Int) (rest : Bytes) (as : List Argument) : Prop where
  /-- there is a host -/
  host_ne_nil : f.host ≠ []
  /-- there is a database -/
  dbname_ne_nil : f.dbname ≠ []
  /-- the port is the usual one, or the first piece behind the host begins with it -/
  hasPort : HasPort f.ports port rest
  /-- the arguments are those of the first piece behind the database -/
  list : f.lists.headD [] = Argument.list as
  /-- no value has a separator of arguments -/
  values : ∀ a ∈ as, Byte.equals ∉ a.value ∧ ampersand ∉ a.value

/-- What a cut text is read as. -/
def readAs (f : Cut) (port : Int) (as : List Argument) : Conninfo :=
  as.foldl given { host := f.host, port, dbname := f.dbname }

/-- A cut text is accepted exactly where it is read with some port, rest and arguments. -/
theorem parse_text_eq_ok_iff :
    parse f.text = .ok info ↔ ∃ port rest as, f.Reads port rest as ∧ info = f.readAs port as := by
  rw [parse_text, Except.guard_eq_ok, Except.bind_eq_ok, not_or]
  constructor
  · rintro ⟨⟨hhost, hdbname⟩, port, hport, harguments⟩
    obtain ⟨rest, hport⟩ := readPort_eq_ok_iff.1 hport
    obtain ⟨as, has, hlist, rfl⟩ := readArguments_eq_ok_iff.1 harguments
    exact ⟨port, rest, as, ⟨hhost, hdbname, hport, hlist, has⟩, rfl⟩
  · rintro ⟨port, rest, as, h, rfl⟩
    exact ⟨⟨h.host_ne_nil, h.dbname_ne_nil⟩, port, readPort_eq_ok_iff.2 ⟨rest, h.hasPort⟩,
      readArguments_eq_ok_iff.2 ⟨as, h.values, h.list, rfl⟩⟩

end Cut

/-- **What connection strings are accepted, and what they are read as.** -/
theorem parse_eq_ok_iff :
    parse s = .ok info ↔ ∃ f : Cut, f.text = s ∧
      ∃ port rest as, f.Reads port rest as ∧ info = f.readAs port as := by
  constructor
  · intro h
    obtain ⟨f, rfl⟩ := Cut.exists_of_parse (s := s) (by rw [h]; exact nofun)
    exact ⟨f, rfl, Cut.parse_text_eq_ok_iff.1 h⟩
  · rintro ⟨f, rfl, h⟩
    exact Cut.parse_text_eq_ok_iff.2 h

/-! ## Spellings -/

/-- A connection string as it is written: `host[:port]/dbname[?argument&argument]`. -/
structure Spelling where
  /-- the host -/
  host : Bytes
  /-- the port, if it is written -/
  port : Option Bytes
  /-- the database -/
  dbname : Bytes
  /-- the arguments, if there is a question mark -/
  arguments : Option (List Argument)

namespace Spelling

/-- The text in front of the slash. -/
def left (w : Spelling) : Bytes := Bytes.joined [colon] (w.host :: w.port.toList)

/-- The text behind the slash. -/
def right (w : Spelling) : Bytes :=
  Bytes.joined [Byte.question] (w.dbname :: (w.arguments.map Argument.list).toList)

/-- The whole text. -/
def text (w : Spelling) : Bytes := w.left ++ slash :: w.right

/-- A connection string **is spelled**: each of its components is there, and nothing else is. -/
structure Spells (w : Spelling) (info : Conninfo) : Prop where
  /-- the host is there -/
  host : w.host = info.host
  /-- a port that is written is a numeral for the one that is meant -/
  written : ∀ p, w.port = some p → IsNumeral p info.port
  /-- the usual port need not be written -/
  usual : w.port = none → info.port = 3306
  /-- the database is there -/
  dbname : w.dbname = info.dbname
  /-- every argument gives what is meant, and no value runs over into the next one -/
  arguments : ∀ a ∈ w.arguments.getD [], ampersand ∉ a.value ∧ a.value = info.get a.field
  /-- a credential that no argument gives is empty -/
  absent : ∀ c, (∀ a ∈ w.arguments.getD [], a.field ≠ c) → info.get c = []

/-- The separators of a spelling are where they separate, and nowhere else. -/
structure Plain (w : Spelling) : Prop where
  /-- the host has no separator -/
  host : slash ∉ w.host ∧ colon ∉ w.host
  /-- the database has no separator -/
  dbname : slash ∉ w.dbname ∧ Byte.question ∉ w.dbname
  /-- no value has a separator -/
  arguments : ∀ a ∈ w.arguments.getD [], PlainValue a.value

variable {w : Spelling}

/-- A numeral has no separator. -/
theorem port_plain (h : w.Spells info) (hp : w.port = some p) : slash ∉ p ∧ colon ∉ p := by
  have hbytes : ∀ b ∈ p, _ := fun b hb => (h.written p hp).bytes hb
  have hslash : ¬(Byte.isSpace slash = true ∨ slash ∈ [Byte.plus, Byte.minus] ∨
      Byte.isDigit slash = true) := by decide
  have hcolon : ¬(Byte.isSpace colon = true ∨ colon ∈ [Byte.plus, Byte.minus] ∨
      Byte.isDigit colon = true) := by decide
  exact ⟨fun hmem => hslash (hbytes slash hmem), fun hmem => hcolon (hbytes colon hmem)⟩

/-- A list of arguments has no separator of other parts. -/
theorem list_plain (hw : w.Plain) (hl : l ∈ w.arguments.map Argument.list) :
    slash ∉ l ∧ Byte.question ∉ l := by
  obtain ⟨as, has, rfl⟩ := Option.map_eq_some_iff.1 (Option.mem_def.1 hl)
  have hvalues : ∀ a ∈ as, PlainValue a.value := fun a ha => hw.arguments a (by rwa [has])
  constructor
  · refine Bytes.not_mem_joined (by decide) (List.forall_mem_map.2 fun a ha => ?_)
    exact Argument.not_mem_text a.field.name_plain.1 (by decide) (hvalues a ha).1
  · refine Bytes.not_mem_joined (by decide) (List.forall_mem_map.2 fun a ha => ?_)
    exact Argument.not_mem_text a.field.name_plain.2.1 (by decide) (hvalues a ha).2.1

/-- A plain spelling, cut where its separators are. -/
def cut (hw : w.Plain) (h : w.Spells info) : Cut where
  host := w.host
  ports := w.port.toList
  dbname := w.dbname
  lists := (w.arguments.map Argument.list).toList
  left_plain := List.forall_mem_cons.2
    ⟨hw.host, fun _ hp => port_plain h (Option.mem_toList.1 hp)⟩
  right_plain := List.forall_mem_cons.2
    ⟨hw.dbname, fun _ hl => list_plain hw (Option.mem_toList.1 hl)⟩

/-- The port of a spelling is read, with no rest. -/
theorem hasPort (h : w.Spells info) (hfits : Fits32 info.port) :
    HasPort w.port.toList info.port [] := by
  cases hp : w.port with
  | none =>
    rw [h.usual hp]
    exact .usual
  | some p => exact .written (Decimal.begins_nil.2 (h.written p hp)) hfits

/-- Arguments that are all meant, and give all that is meant, give just that. -/
theorem readAs_cut (hw : w.Plain) (h : w.Spells info) :
    (cut hw h).readAs info.port (w.arguments.getD []) = info := by
  obtain ⟨hhost, hport, hdbname⟩ :=
    foldl_given_rest (w.arguments.getD []) { host := w.host, port := info.port, dbname := w.dbname }
  refine eq_of_get (hhost.trans h.host) hport (hdbname.trans h.dbname) fun c => ?_
  rcases get_foldl_given (w.arguments.getD [])
    { host := w.host, port := info.port, dbname := w.dbname } c with
    ⟨a, ha, rfl, hget⟩ | ⟨hnone, hget⟩
  · exact hget.trans (h.arguments a ha).2
  · refine hget.trans (Eq.trans ?_ (h.absent c hnone).symm)
    cases c <;> rfl

end Spelling

/-- **What is spelled is read back.** -/
theorem parse_of_spells {w : Spelling} (hw : w.Plain) (h : w.Spells info) (hhost : info.host ≠ [])
    (hdbname : info.dbname ≠ []) (hfits : Fits32 info.port) : parse w.text = .ok info := by
  refine parse_eq_ok_iff.2 ⟨Spelling.cut hw h, rfl, info.port, [], w.arguments.getD [],
    ⟨?_, ?_, Spelling.hasPort h hfits, ?_, fun a ha => ?_⟩, (Spelling.readAs_cut hw h).symm⟩
  · exact h.host.trans_ne hhost
  · exact h.dbname.trans_ne hdbname
  · change (w.arguments.map Argument.list).toList.headD [] = _
    cases w.arguments <;> rfl
  · obtain ⟨-, -, hampersand, hequals⟩ := hw.arguments a ha
    exact ⟨hequals, hampersand⟩

/-- The arguments for a user and a password, as far as there are any. -/
def credentials (user password : Option Bytes) : List Argument :=
  (user.map (Argument.mk .user)).toList ++ (password.map (Argument.mk .password)).toList

/-- The arguments are the one for the user and the one for the password. -/
theorem mem_credentials_iff {user password : Option Bytes} :
    a ∈ credentials user password ↔
      (∃ v, user = some v ∧ ⟨.user, v⟩ = a) ∨ ∃ v, password = some v ∧ ⟨.password, v⟩ = a := by
  simp only [credentials, List.mem_append, Option.mem_toList, Option.map_eq_some_iff]

section

variable {host dbname : Bytes} {port : Option Nat} {user password : Option Bytes}
  {arguments : Option (List Argument)}

/-- Plain credentials make arguments with plain values. -/
theorem plain_of_credentials (huser : ∀ v ∈ user, PlainValue v)
    (hpassword : ∀ v ∈ password, PlainValue v) (ha : a ∈ credentials user password) :
    PlainValue a.value := by
  rcases mem_credentials_iff.1 ha with ⟨v, hv, rfl⟩ | ⟨v, hv, rfl⟩
  · exact huser v hv
  · exact hpassword v hv

/-- Components with a decimal port and the arguments for the credentials are spelled. -/
theorem spells_credentials (harguments : (arguments.getD []).Perm (credentials user password))
    (hplain : ∀ a ∈ credentials user password, PlainValue a.value) :
    Spelling.Spells ⟨host, port.map Decimal.natText, dbname, arguments⟩
      { host, port := (port.getD 3306 : Nat), dbname, user := user.getD [],
        password := password.getD [] } := by
  constructor
  case host => rfl
  case written =>
    intro p hp
    obtain ⟨n, rfl, rfl⟩ := Option.map_eq_some_iff.1 hp
    exact Decimal.isNumeral_intText n
  case usual =>
    intro hnone
    rw [Option.map_eq_none_iff.1 hnone]
    rfl
  case dbname => rfl
  case arguments =>
    intro a ha
    have hmem := harguments.mem_iff.1 ha
    refine ⟨(hplain a hmem).2.2.1, ?_⟩
    rcases mem_credentials_iff.1 hmem with ⟨v, rfl, rfl⟩ | ⟨v, rfl, rfl⟩
    · rfl
    · rfl
  -- a credential without an argument was not given, and stands for the empty text
  case absent =>
    have hgiven : ∀ a ∈ credentials user password, a ∈ arguments.getD [] :=
      fun a ha => harguments.mem_iff.2 ha
    rintro (_ | _) hnone
    · cases user with
      | none => rfl
      | some v =>
        exact absurd rfl (hnone _ (hgiven _ (mem_credentials_iff.2 (Or.inl ⟨v, rfl, rfl⟩))))
    · cases password with
      | none => rfl
      | some v =>
        exact absurd rfl (hnone _ (hgiven _ (mem_credentials_iff.2 (Or.inr ⟨v, rfl, rfl⟩))))

end

/-- **Connection strings are read as they are written**: every host, every port, every database and
all credentials that have no separators, with the arguments in any order. -/
theorem parse_written (host dbname : Bytes) (port : Option Nat) (user password : Option Bytes)
    (arguments : Option (List Argument)) (hhost : host ≠ [] ∧ slash ∉ host ∧ colon ∉ host)
    (hport : ∀ n ∈ port, n ≤ 2147483647)
    (hdbname : dbname ≠ [] ∧ slash ∉ dbname ∧ Byte.question ∉ dbname)
    (huser : ∀ v ∈ user, PlainValue v) (hpassword : ∀ v ∈ password, PlainValue v)
    (harguments : (arguments.getD []).Perm (credentials user password)) :
    parse (Spelling.text ⟨host, port.map Decimal.natText, dbname, arguments⟩) =
      .ok { host, port := (port.getD 3306 : Nat), dbname, user := user.getD [],
            password := password.getD [] } := by
  have hplain : ∀ a ∈ credentials user password, PlainValue a.value :=
    fun a ha => plain_of_credentials huser hpassword ha
  have hwritten : ∀ a ∈ arguments.getD [], PlainValue a.value :=
    fun a ha => hplain a (harguments.mem_iff.1 ha)
  have hfits : Fits32 (port.getD 3306 : Nat) := by
    refine Decimal.fits32_natCast ?_
    cases port with
    | none => decide
    | some n => exact hport n rfl
  exact parse_of_spells ⟨hhost.2, hdbname.2, hwritten⟩ (spells_credentials harguments hplain)
    hhost.1 hdbname.1 hfits

/-- A password in front of the name, and a port. -/
theorem parse_written_shop :
    parse (ascii "db.example:3307/shop?password=s3cret&username=app") =
      .ok { host := ascii "db.example", port := 3307, dbname := ascii "shop", user := ascii "app",
            password := ascii "s3cret" } :=
  parse_written (ascii "db.example") (ascii "shop") (some 3307) (some (ascii "app"))
    (some (ascii "s3cret")) (some [⟨.password, ascii "s3cret"⟩, ⟨.user, ascii "app"⟩])
    (by decide) (by decide) (by decide) (by decide) (by decide) (List.Perm.swap _ _ [])

/-! ## Texts of which nothing is dropped -/

/-- **Every byte of a text is used**: the text is a spelling of what is read, with one colon at most
in front of the slash and one question mark at most behind it. -/
def Uses (info : Conninfo) (s : Bytes) : Prop :=
  ∃ w : Spelling, w.text = s ∧ w.Spells info ∧
    w.left.count colon ≤ 1 ∧ w.right.count Byte.question ≤ 1

/-- **A text is read whole, or refused** as an invalid argument. -/
structure ReadWhole (s : Bytes) : Prop where
  /-- every byte of a text that is accepted is used -/
  accepted : ∀ info, parse s = .ok info → info.Uses s
  /-- a text that is not accepted is an invalid argument -/
  refused : ∀ e, parse s = .error e → e.kind = .invalidArgument

namespace Cut

variable {f : Cut}

/-- A spelling of a cut text has its slash where the text has the only one. -/
theorem left_right_of_text_eq {w : Spelling} (h : w.text = f.text) :
    w.left = f.left ∧ w.right = f.right := by
  obtain ⟨hleft, -, hright⟩ := (List.append_cons_inj_of_notMem f.slash_not_mem_left
    f.slash_not_mem_right).1 h.symm
  exact ⟨hleft.symm, hright.symm⟩

/-- A colon stands in front of each piece after the host, and nowhere else. -/
theorem count_left (f : Cut) : f.left.count colon = f.ports.length :=
  Bytes.count_joined fun p hp => (f.left_plain p hp).2

theorem count_right (f : Cut) : f.right.count Byte.question = f.lists.length :=
  Bytes.count_joined fun p hp => (f.right_plain p hp).2

/-- The arguments of a cut text are those of the only spelling that it can have. -/
theorem Reads.arguments_eq {o : Option (List Argument)} (h : f.Reads port rest as)
    (ho : (o.map Argument.list).toList = f.lists) (hplain : ∀ a ∈ o.getD [], ampersand ∉ a.value) :
    o.getD [] = as := by
  refine list_injective hplain (fun a ha => (h.values a ha).2) (Eq.trans ?_ h.list)
  rw [← ho]
  cases o <;> rfl

/-- Where the port is spelled by a numeral, the reading of it leaves nothing. -/
theorem Reads.rest_eq_nil (h : f.Reads port rest as) {o : Option Bytes} (ho : o.toList = f.ports)
    (hnumeral : ∀ p, o = some p → IsNumeral p port) : rest = [] := by
  have hport := ho ▸ h.hasPort
  cases o with
  | none =>
    cases hport
    rfl
  | some p =>
    cases hport with
    | written hbegins _ => exact (hbegins.unique (Decimal.begins_nil.2 (hnumeral p rfl))).2

/-- What a cut text is read as has its host and its database, and the port that was read. -/
theorem readAs_rest (f : Cut) (port : Int) (as : List Argument) :
    (f.readAs port as).host = f.host ∧ (f.readAs port as).port = port ∧
      (f.readAs port as).dbname = f.dbname :=
  foldl_given_rest as _

/-- The spelling of what a cut text is read as. -/
def spelling (f : Cut) (as : List Argument) : Spelling :=
  ⟨f.host, f.ports.head?, f.dbname, f.lists.head?.map fun _ => as⟩

/-- With one port at most, the spelling has the text in front of the slash. -/
theorem left_spelling (h : f.ports.length ≤ 1) (as : List Argument) :
    (f.spelling as).left = f.left := by
  rw [Spelling.left, Cut.left, spelling, ← List.take_one, List.take_of_length_le h]

/-- With one list of arguments at most, it has the text behind it. -/
theorem right_spelling (h : f.lists.length ≤ 1) (hlist : f.lists.headD [] = Argument.list as) :
    (f.spelling as).right = f.right := by
  rw [Spelling.right, Cut.right, spelling]
  generalize f.lists = ls at *
  match ls, h with
  | [], _ => rfl
  | [l], _ =>
    obtain rfl : l = Argument.list as := hlist
    rfl

/-- The arguments are all spelled. -/
theorem Reads.arguments_spelling (h : f.Reads port rest as) :
    (f.spelling as).arguments.getD [] = as := by
  have hlist := h.list
  rw [spelling]
  generalize f.lists = ls at *
  cases ls with
  | cons l ls => rfl
  | nil => exact list_injective (List.forall_mem_nil _) (fun a ha => (h.values a ha).2) hlist

/-- What is read with no rest, and with arguments that agree, is spelled. -/
theorem Reads.spells (h : f.Reads port [] as)
    (hagree : ∀ a ∈ as, ∀ b ∈ as, a.field = b.field → a.value = b.value) :
    (f.spelling as).Spells (f.readAs port as) := by
  obtain ⟨hhost, hport, hdbname⟩ := f.readAs_rest port as
  constructor
  case host => exact hhost.symm
  case written =>
    intro p hp
    rw [hport]
    obtain ⟨ps, hps⟩ := List.head?_eq_some_iff.1 hp
    cases hps ▸ h.hasPort with
    | written hbegins _ => exact Decimal.begins_nil.1 hbegins
  case usual =>
    intro hnone
    rw [hport]
    cases List.head?_eq_none_iff.1 hnone ▸ h.hasPort
    rfl
  case dbname => exact hdbname.symm
  case arguments =>
    rw [h.arguments_spelling]
    intro a ha
    refine ⟨(h.values a ha).2, ?_⟩
    -- what is read comes from some argument for the credential, and all of these give one value
    rcases get_foldl_given as { host := f.host, port, dbname := f.dbname } a.field with
      ⟨b, hb, hfield, hget⟩ | ⟨hnone, -⟩
    · exact (hagree a ha b hb hfield.symm).trans hget.symm
    · exact absurd rfl (hnone a ha)
  case absent =>
    rw [h.arguments_spelling]
    intro c hnone
    rcases get_foldl_given as { host := f.host, port, dbname := f.dbname } c with
      ⟨a, ha, hfield, -⟩ | ⟨-, hget⟩
    · exact absurd hfield (hnone a ha)
    · refine hget.trans ?_
      cases c <;> rfl

/-- Every byte of a text that is accepted is used exactly when nothing stands behind the port, there
is one piece of each kind at most, and arguments for one credential give one value. -/
theorem Reads.uses_iff (h : f.Reads port rest as) :
    (f.readAs port as).Uses f.text ↔ rest = [] ∧ f.ports.length ≤ 1 ∧ f.lists.length ≤ 1 ∧
      ∀ a ∈ as, ∀ b ∈ as, a.field = b.field → a.value = b.value := by
  obtain ⟨hhost, hport, hdbname⟩ := f.readAs_rest port as
  constructor
  · rintro ⟨w, htext, hw, hcolons, hquestions⟩
    obtain ⟨hleft, hright⟩ := left_right_of_text_eq htext
    rw [hleft, count_left] at hcolons
    rw [hright, count_right] at hquestions
    -- one piece at most follows the host and the database, so the spelling has the cut's pieces
    rw [Spelling.left, hw.host.trans hhost] at hleft
    rw [Spelling.right, hw.dbname.trans hdbname] at hright
    have hports := Bytes.toList_eq_of_joined_eq hcolons hleft
    have hlists := Bytes.toList_eq_of_joined_eq hquestions hright
    have hargs := h.arguments_eq hlists fun a ha => (hw.arguments a ha).1
    refine ⟨h.rest_eq_nil hports fun p hp => ?_, hcolons, hquestions, fun a ha b hb hfield => ?_⟩
    · rw [← hport]
      exact hw.written p hp
    · rw [(hw.arguments a (hargs ▸ ha)).2, (hw.arguments b (hargs ▸ hb)).2, hfield]
  · rintro ⟨rfl, hports, hlists, hagree⟩
    have hleft := left_spelling hports as
    have hright := right_spelling hlists h.list
    refine ⟨f.spelling as, ?_, h.spells hagree, ?_, ?_⟩
    · rw [Spelling.text, Cut.text, hleft, hright]
    · rwa [hleft, count_left]
    · rwa [hright, count_right]

/-- **Nothing of a cut text is dropped**, and no number in it is too large. -/
structure Whole (f : Cut) : Prop where
  /-- a number at the place of the port is one of 32 bits -/
  fits : ∀ p ∈ f.ports.head?, ∀ n rest, Begins p n rest → Fits32 n
  /-- if the text is read, nothing stands behind the digits of the port, there is no further colon
  and no further question mark, and arguments for one credential agree -/
  used : ∀ port rest as, f.Reads port rest as → rest = [] ∧ f.ports.length ≤ 1 ∧
    f.lists.length ≤ 1 ∧ ∀ a ∈ as, ∀ b ∈ as, a.field = b.field → a.value = b.value

/-- What is refused of cut texts with a host and a database is an invalid argument exactly when no
port is too large a number. -/
theorem refused_iff (hhost : f.host ≠ []) (hdbname : f.dbname ≠ []) :
    (∀ e, parse f.text = .error e → e.kind = .invalidArgument) ↔
      ∀ p ∈ f.ports.head?, ∀ n rest, Begins p n rest → Fits32 n := by
  simp only [parse_text, if_neg (not_or.2 ⟨hhost, hdbname⟩), Except.bind_eq_error]
  constructor
  · intro h p hp n rest hbegins
    by_contra hn
    obtain ⟨ps, hps⟩ := List.head?_eq_some_iff.1 (Option.mem_def.1 hp)
    have hread : Decimal.readLeadingInt32 p = .error .outOfRange :=
      Decimal.readLeadingInt32_eq_outOfRange_iff.2 ⟨n, rest, hbegins, hn⟩
    have hport : readPort f.ports = .error (.port .outOfRange) := by
      rw [hps, readPort, hread]
      rfl
    exact absurd (h _ (Or.inl hport)) (by decide)
  · rintro hfits e (hport | ⟨port, -, harguments⟩)
    · exact kind_of_readPort hfits hport
    · rw [readArguments_eq] at harguments
      exact kind_of_foldlM_argument harguments

end Cut

/-- **When nothing is dropped.** Texts without a single slash between a host and a database are
refused as invalid arguments. Any other text is read whole, or refused as an invalid argument,
exactly when the number at the place of the port is not too large and nothing is left over. -/
theorem readWhole_iff (s : Bytes) :
    ReadWhole s ↔ ∀ f : Cut, f.text = s → f.host ≠ [] → f.dbname ≠ [] → f.Whole := by
  constructor
  · rintro ⟨haccepted, hrefused⟩ f rfl hhost hdbname
    exact ⟨(Cut.refused_iff hhost hdbname).1 hrefused, fun port rest as h =>
      h.uses_iff.1 (haccepted _ (Cut.parse_text_eq_ok_iff.2 ⟨port, rest, as, h, rfl⟩))⟩
  · intro h
    constructor
    case accepted =>
      intro info hinfo
      obtain ⟨f, rfl, port, rest, as, hreads, rfl⟩ := parse_eq_ok_iff.1 hinfo
      have hwhole := h f rfl hreads.host_ne_nil hreads.dbname_ne_nil
      exact hreads.uses_iff.2 (hwhole.used port rest as hreads)
    case refused =>
      intro e he
      -- a text that is malformed has no cut with a host and a database to ask about
      by_cases hmalformed : e = .malformed s
      · rw [hmalformed]
        rfl
      · obtain ⟨f, rfl⟩ := Cut.exists_of_parse (s := s) fun heq =>
          hmalformed (Except.error.inj (he.symm.trans heq))
        have hne : ¬(f.host = [] ∨ f.dbname = []) := fun hnil => by
          rw [Cut.parse_text, if_pos hnil] at he
          exact hmalformed (Except.error.inj he).symm
        obtain ⟨hhost, hdbname⟩ := not_or.1 hne
        exact (Cut.refused_iff hhost hdbname).2 (h f rfl hhost hdbname).fits e he

/-- A password is cut short at a question mark, and a port that is too large a number is refused,
but not as an invalid argument. -/
theorem password_cut_short :
    (parse (ascii "localhost/test?username=app&password=p?ss") =
        .ok { host := ascii "localhost", dbname := ascii "test", user := ascii "app",
              password := ascii "p" } ∧
      ¬ReadWhole (ascii "localhost/test?username=app&password=p?ss")) ∧
    parse (ascii "localhost:99999999999/test") = .error (.port .outOfRange) ∧
      ¬ReadWhole (ascii "localhost:99999999999/test") := by
  let f : Cut := ⟨ascii "localhost", [], ascii "test",
    [ascii "username=app&password=p", ascii "ss"], by decide, by decide⟩
  have hreads : f.Reads 3306 [] [⟨.user, ascii "app"⟩, ⟨.password, ascii "p"⟩] :=
    ⟨by decide, by decide, .usual, by decide, by decide⟩
  have hlarge : parse (ascii "localhost:99999999999/test") = .error (.port .outOfRange) := by decide
  refine ⟨⟨by decide, fun h => ?_⟩, hlarge, fun h => ?_⟩
  · have huses := h.accepted _ (Cut.parse_text_eq_ok_iff.2 ⟨3306, [], _, hreads, rfl⟩)
    exact absurd (hreads.uses_iff.1 huses).2.2.1 (by decide)
  · exact absurd (h.refused _ hlarge) (by decide)

end SqlPlan.Conninfo
