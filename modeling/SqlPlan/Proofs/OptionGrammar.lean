import SqlPlan.Options
import SqlPlan.Proofs.Maps

/-!
# The grammar of options

An argument spells an option (`Options.Spells`) if it is the name of one after two dashes, alone or
with an equals sign and a value. The same arguments are those that a regular expression matches, and
name and value are what its groups capture, in whatever order a matcher tries the alternatives
(`Options.spells_iff_matches`).

`Options.parse_grammar` says what a list of arguments is read as: the last option of each name
counts, and the first argument that spells none is the error.
-/

namespace SqlPlan

/-! ## Patterns -/

/-- Patterns for texts: regular expressions with groups. -/
inductive Pattern where
  /-- one of some texts -/
  | oneOf (texts : List Bytes)
  /-- one byte that is none of these -/
  | butFor (bytes : Bytes)
  /-- one pattern after the other -/
  | seq (p q : Pattern)
  /-- one pattern or the other -/
  | choice (p q : Pattern)
  /-- a pattern any number of times -/
  | many (p : Pattern)
  /-- a pattern whose match is captured under a number -/
  | group (i : Nat) (p : Pattern)

namespace Pattern

/-- What the groups of a match captured, each under its number. -/
abbrev Captures := List (Nat × Bytes)

/-- The pattern or nothing. -/
def optional (p : Pattern) : Pattern := .choice p (.oneOf [[]])

/-- A pattern **matches** a whole text with some captures. -/
inductive Matches : Pattern → Bytes → Captures → Prop where
  /-- one of the texts is there -/
  | oneOf {ss : List Bytes} {s : Bytes} : s ∈ ss → Matches (.oneOf ss) s []
  /-- none of the bytes is there -/
  | butFor {bs : Bytes} {b : UInt8} : b ∉ bs → Matches (.butFor bs) [b] []
  /-- the text falls in two parts -/
  | seq {p q : Pattern} {s t : Bytes} {cs ds : Captures} :
      Matches p s cs → Matches q t ds → Matches (.seq p q) (s ++ t) (cs ++ ds)
  /-- the first alternative matches -/
  | left {p q : Pattern} {s : Bytes} {cs : Captures} : Matches p s cs → Matches (.choice p q) s cs
  /-- the second alternative matches -/
  | right {p q : Pattern} {s : Bytes} {cs : Captures} : Matches q s cs → Matches (.choice p q) s cs
  /-- the pattern is not repeated further -/
  | done {p : Pattern} : Matches (.many p) [] []
  /-- the pattern is repeated once more -/
  | more {p : Pattern} {s t : Bytes} {cs ds : Captures} :
      Matches p s cs → Matches (.many p) t ds → Matches (.many p) (s ++ t) (cs ++ ds)
  /-- the match is captured -/
  | group {i : Nat} {p : Pattern} {s : Bytes} {cs : Captures} :
      Matches p s cs → Matches (.group i p) s ((i, s) :: cs)

variable {p q : Pattern} {s : Bytes} {cs : Captures}

/-- A choice of words matches each of them, and captures nothing. -/
theorem matches_oneOf {ss : List Bytes} : (oneOf ss).Matches s cs ↔ s ∈ ss ∧ cs = [] := by
  constructor
  · intro h
    cases h with
    | oneOf h => exact ⟨h, rfl⟩
  · rintro ⟨h, rfl⟩
    exact .oneOf h

/-- A class of bytes matches one byte that is not among those it excludes. -/
theorem matches_butFor {bs : Bytes} :
    (butFor bs).Matches s cs ↔ ∃ b, s = [b] ∧ b ∉ bs ∧ cs = [] := by
  constructor
  · intro h
    cases h with
    | butFor h => exact ⟨_, rfl, h, rfl⟩
  · rintro ⟨b, rfl, h, rfl⟩
    exact .butFor h

/-- A sequence matches where the text falls into two parts that its members match; the captures
follow each other. -/
theorem matches_seq :
    (seq p q).Matches s cs ↔
      ∃ t u ds es, p.Matches t ds ∧ q.Matches u es ∧ s = t ++ u ∧ cs = ds ++ es := by
  constructor
  · intro h
    cases h with
    | seq hp hq => exact ⟨_, _, _, _, hp, hq, rfl, rfl⟩
  · rintro ⟨t, u, ds, es, hp, hq, rfl, rfl⟩
    exact .seq hp hq

theorem matches_choice : (choice p q).Matches s cs ↔ p.Matches s cs ∨ q.Matches s cs := by
  constructor
  · intro h
    cases h with
    | left h => exact Or.inl h
    | right h => exact Or.inr h
  · rintro (h | h)
    · exact .left h
    · exact .right h

/-- A group captures what it matches, before what is captured within. -/
theorem matches_group {i : Nat} :
    (group i p).Matches s cs ↔ ∃ ds, p.Matches s ds ∧ cs = (i, s) :: ds := by
  constructor
  · intro h
    cases h with
    | group h => exact ⟨_, h, rfl⟩
  · rintro ⟨ds, h, rfl⟩
    exact .group h

theorem matches_optional : (optional p).Matches s cs ↔ p.Matches s cs ∨ s = [] ∧ cs = [] := by
  rw [optional, matches_choice, matches_oneOf, List.mem_singleton]

/-- A pattern for single bytes, repeated, matches the texts of such bytes. -/
theorem matches_many {P : UInt8 → Prop}
    (hp : ∀ s cs, p.Matches s cs ↔ ∃ b, s = [b] ∧ P b ∧ cs = []) :
    (many p).Matches s cs ↔ (∀ b ∈ s, P b) ∧ cs = [] := by
  constructor
  · intro h
    generalize hq : many p = q at h
    induction h with
    | done => exact ⟨fun b hb => absurd hb List.not_mem_nil, rfl⟩
    | more hfirst _ _ ih =>
      obtain rfl := Pattern.many.inj hq
      obtain ⟨b, rfl, hb, rfl⟩ := (hp _ _).1 hfirst
      obtain ⟨hrest, rfl⟩ := ih rfl
      exact ⟨List.forall_mem_cons.2 ⟨hb, hrest⟩, rfl⟩
    | _ => cases hq
  · rintro ⟨h, rfl⟩
    induction s with
    | nil => exact .done
    | cons b s ih =>
      obtain ⟨hb, hs⟩ := List.forall_mem_cons.1 h
      exact .more ((hp [b] []).2 ⟨b, rfl, hb, rfl⟩) (ih hs)

end Pattern

namespace Options

/-! ## One argument -/

/-- The dashes in front of an option. -/
def dashes : Bytes := ascii "--"

/-- An argument **spells** an option: its name after two dashes, alone or with an equals sign and a
value behind it. -/
inductive Spells : Bytes → Bytes → Bytes → Prop where
  /-- an option without a value, which counts as empty -/
  | alone {name : Bytes} : name ∈ names → Spells (dashes ++ name) name []
  /-- an option with a value that has no carriage return -/
  | valued {name v : Bytes} : name ∈ names → Byte.carriageReturn ∉ v →
      Spells (dashes ++ (name ++ Byte.equals :: v)) name v

/-- The pattern `.|\n` for a byte of a value. The dot stands for any byte but the two that end a
line. -/
def valueByte : Pattern :=
  .choice (.butFor [Byte.newline, Byte.carriageReturn]) (.oneOf [[Byte.newline]])

/-- The regular expression for options,
`--(sqlite|mysql|busy-timeout|verbose|dump-queries|no-cache)(?:=((?:.|\n)*))?`. -/
def pattern : Pattern :=
  .seq (.oneOf [dashes]) (.seq (.group 1 (.oneOf names))
    (.optional (.seq (.oneOf [[Byte.equals]]) (.group 2 (.many valueByte)))))

/-- A value can have every byte but the carriage return. -/
theorem matches_valueByte {s : Bytes} {cs : Pattern.Captures} :
    valueByte.Matches s cs ↔ ∃ b, s = [b] ∧ b ≠ Byte.carriageReturn ∧ cs = [] := by
  rw [valueByte, Pattern.matches_choice, Pattern.matches_butFor, Pattern.matches_oneOf,
    List.mem_singleton]
  constructor
  · rintro (⟨b, rfl, hb, rfl⟩ | ⟨rfl, rfl⟩)
    · exact ⟨b, rfl, fun heq => hb (by simp [heq]), rfl⟩
    · exact ⟨Byte.newline, rfl, by decide, rfl⟩
  · rintro ⟨b, rfl, hb, rfl⟩
    by_cases hnewline : b = Byte.newline
    · exact Or.inr ⟨by rw [hnewline], rfl⟩
    · exact Or.inl ⟨b, rfl, by simp [hb, hnewline], rfl⟩

/-- What the regular expression matches and captures. -/
theorem matches_pattern {a : Bytes} {cs : Pattern.Captures} :
    pattern.Matches a cs ↔
      (∃ name ∈ names, a = dashes ++ name ∧ cs = [(1, name)]) ∨
      ∃ name ∈ names, ∃ v, Byte.carriageReturn ∉ v ∧ a = dashes ++ (name ++ Byte.equals :: v) ∧
        cs = [(1, name), (2, v)] := by
  -- the value is captured whole, since its bytes capture nothing
  have hvalue : ∀ {v cs}, (Pattern.group 2 (.many valueByte)).Matches v cs ↔
      (∀ b ∈ v, b ≠ Byte.carriageReturn) ∧ cs = [(2, v)] := by
    intro v cs
    simp only [Pattern.matches_group, Pattern.matches_many fun _ _ => matches_valueByte]
    exact ⟨fun ⟨_, ⟨hv, rfl⟩, hcs⟩ => ⟨hv, hcs⟩, fun ⟨hv, hcs⟩ => ⟨_, ⟨hv, rfl⟩, hcs⟩⟩
  simp only [pattern, Pattern.matches_seq, Pattern.matches_oneOf, Pattern.matches_group,
    Pattern.matches_optional, hvalue, List.mem_singleton]
  constructor
  · rintro ⟨_, _, _, _, ⟨rfl, rfl⟩, ⟨name, _, _, _, ⟨_, ⟨hname, rfl⟩, rfl⟩, hrest, rfl, rfl⟩, rfl,
      rfl⟩
    rcases hrest with ⟨_, v, _, _, ⟨rfl, rfl⟩, ⟨hv, rfl⟩, rfl, rfl⟩ | ⟨rfl, rfl⟩
    · exact Or.inr ⟨name, hname, v, fun hcr => hv _ hcr rfl, rfl, rfl⟩
    · exact Or.inl ⟨name, hname, by rw [List.append_nil], rfl⟩
  · rintro (⟨name, hname, rfl, rfl⟩ | ⟨name, hname, v, hv, rfl, rfl⟩)
    · exact ⟨_, name, [], _, ⟨rfl, rfl⟩, ⟨name, [], _, [], ⟨_, ⟨hname, rfl⟩, rfl⟩,
        Or.inr ⟨rfl, rfl⟩, by rw [List.append_nil], rfl⟩, rfl, rfl⟩
    · exact ⟨_, _, [], _, ⟨rfl, rfl⟩, ⟨name, _, _, _, ⟨_, ⟨hname, rfl⟩, rfl⟩,
        Or.inl ⟨_, v, [], _, ⟨rfl, rfl⟩, ⟨fun b hb heq => hv (heq ▸ hb), rfl⟩, rfl, rfl⟩, rfl, rfl⟩,
        rfl, rfl⟩

/-- **An argument spells an option exactly when the regular expression matches it**, and whatever
way it does, the first group captures the name and the second one the value. -/
theorem spells_iff_matches {a name v : Bytes} :
    Spells a name v ↔ ∃ captures, pattern.Matches a captures ∧ captures.lookup 1 = some name ∧
      (captures.lookup 2).getD [] = v := by
  constructor
  · intro h
    cases h with
    | alone hname => exact ⟨_, matches_pattern.2 (Or.inl ⟨name, hname, rfl, rfl⟩), rfl, rfl⟩
    | valued hname hv =>
      exact ⟨_, matches_pattern.2 (Or.inr ⟨name, hname, v, hv, rfl, rfl⟩), rfl, rfl⟩
  · rintro ⟨cs, hcs, hname, rfl⟩
    rcases matches_pattern.1 hcs with ⟨name', hname', rfl, rfl⟩ | ⟨name', hname', v, hv, rfl, rfl⟩
    · obtain rfl : name' = name := Option.some.inj hname
      exact .alone hname'
    · obtain rfl : name' = name := Option.some.inj hname
      exact .valued hname' hv

/-! ## Reading one argument -/

/-- An argument without an equals sign has the empty value, and one with it has what follows, which
must have no carriage return. -/
theorem value?_eq_some_iff {s v : Bytes} :
    value? s = some v ↔
      s = [] ∧ v = [] ∨ s = Byte.equals :: v ∧ Byte.carriageReturn ∉ v := by
  cases s with
  | nil =>
    rw [value?, Option.some_inj, eq_comm]
    simp
  | cons b s =>
    simp only [value?, Option.ite_none_right_eq_some, Bool.and_eq_true, decide_eq_true_eq,
      Bool.not_eq_true', List.contains_eq_mem, decide_eq_false_iff_not, Option.some.injEq,
      List.cons.injEq, List.cons_ne_nil, false_and, false_or]
    constructor
    · rintro ⟨⟨rfl, hv⟩, rfl⟩
      exact ⟨⟨rfl, rfl⟩, hv⟩
    · rintro ⟨⟨rfl, rfl⟩, hv⟩
      exact ⟨⟨rfl, hv⟩, rfl⟩

/-- Reading by a name wants the name in front of what can follow a name. -/
theorem readAs?_eq_some_iff {s name n v : Bytes} :
    readAs? s n = some (name, v) ↔ name = n ∧ ∃ t, s = n ++ t ∧ value? t = some v := by
  rw [readAs?, Option.ite_none_right_eq_some, List.isPrefixOf_iff_prefix]
  constructor
  · rintro ⟨⟨t, rfl⟩, h⟩
    obtain ⟨w, hw, heq⟩ := Option.map_eq_some_iff.1 h
    obtain ⟨rfl, rfl⟩ := Prod.mk.inj heq
    exact ⟨rfl, t, rfl, by rwa [List.drop_left] at hw⟩
  · rintro ⟨rfl, t, rfl, ht⟩
    refine ⟨⟨t, rfl⟩, Option.map_eq_some_iff.2 ⟨v, ?_, rfl⟩⟩
    rwa [List.drop_left]

/-- A name has no equals sign, so it is what stands before the first one. -/
theorem takeWhile_of_value? {name t v : Bytes} (hname : name ∈ names) (ht : value? t = some v) :
    (name ++ t).takeWhile (· != Byte.equals) = name := by
  have hplain : ∀ name ∈ names, name.all (· != Byte.equals) = true := by decide
  rw [List.takeWhile_append_of_pos (List.all_eq_true.1 (hplain name hname))]
  rcases value?_eq_some_iff.1 ht with ⟨rfl, -⟩ | ⟨rfl, -⟩
  · exact List.append_nil name
  · exact List.append_nil name

/-- Behind the dashes, an option is read by the name that it has, and by no other. -/
theorem findSome?_readAs? {s name v : Bytes} :
    names.findSome? (readAs? s) = some (name, v) ↔
      name ∈ names ∧ ∃ t, s = name ++ t ∧ value? t = some v := by
  constructor
  · intro h
    obtain ⟨n, hn, h⟩ := List.exists_of_findSome?_eq_some h
    obtain ⟨rfl, h⟩ := readAs?_eq_some_iff.1 h
    exact ⟨hn, h⟩
  · rintro ⟨hname, t, rfl, ht⟩
    have hread : readAs? (name ++ t) name = some (name, v) :=
      readAs?_eq_some_iff.2 ⟨rfl, t, rfl, ht⟩
    obtain ⟨⟨n, w⟩, hfound⟩ : ∃ g, names.findSome? (readAs? (name ++ t)) = some g := by
      rw [← Option.isSome_iff_exists, List.findSome?_isSome_iff]
      exact ⟨name, hname, by rw [hread]; rfl⟩
    obtain ⟨n', hn', hw⟩ := List.exists_of_findSome?_eq_some hfound
    obtain ⟨rfl, t', heq, ht'⟩ := readAs?_eq_some_iff.1 hw
    have hsame : n = name := by
      rw [← takeWhile_of_value? hn' ht', ← heq, takeWhile_of_value? hname ht]
    rw [hfound, ← hw, hsame, hread]

/-- **An argument is read as the option that it spells.** -/
theorem readOne?_eq_some_iff {a name v : Bytes} :
    readOne? a = some (name, v) ↔ Spells a name v := by
  constructor
  · intro h
    unfold readOne? at h
    split at h
    · rename_i s
      obtain ⟨hname, t, rfl, ht⟩ := findSome?_readAs?.1 h
      rcases value?_eq_some_iff.1 ht with ⟨rfl, rfl⟩ | ⟨rfl, hv⟩
      · rw [List.append_nil]
        exact .alone hname
      · exact .valued hname hv
    · cases h
  · intro h
    cases h with
    | alone hname =>
      exact findSome?_readAs?.2 ⟨hname, [], (List.append_nil name).symm, rfl⟩
    | valued hname hv =>
      exact findSome?_readAs?.2 ⟨hname, _, rfl, value?_eq_some_iff.2 (Or.inr ⟨rfl, hv⟩)⟩

/-! ## Reading a list of arguments -/

/-- The options with one more argument read. -/
def given (o : Options) (a : Bytes) : Except OptionError Options :=
  match readOne? a with
  | some (name, v) => .ok (o.insert name v)
  | none => .error (.unknown a)

/-- The option that an argument spells, if it spells one. -/
def spelled (a : Bytes) : Bytes × Bytes := (readOne? a).getD ([], [])

variable {arguments before after : List Bytes} {a b name v : Bytes} {o : Options}

theorem parse_eq_foldlM : parse arguments = arguments.foldlM given .empty := rfl

/-- An argument that spells an option sets it. -/
theorem given_of_spells (h : Spells a name v) (o : Options) :
    given o a = .ok (o.insert name v) := by
  rw [given, readOne?_eq_some_iff.2 h]

/-- Any other argument is refused, with its text. -/
theorem given_of_not_spells (h : ¬∃ name v, Spells a name v) (o : Options) :
    given o a = .error (.unknown a) := by
  have hnone : readOne? a = none :=
    Option.eq_none_iff_forall_ne_some.2 fun g hg => h ⟨g.1, g.2, readOne?_eq_some_iff.1 hg⟩
  rw [given, hnone]

/-- An argument spells one option only, so the one that is chosen is the one it spells. -/
theorem spelled_eq_iff (h : ∃ name v, Spells a name v) :
    spelled a = (name, v) ↔ Spells a name v := by
  obtain ⟨n, w, h⟩ := h
  rw [← readOne?_eq_some_iff, spelled, readOne?_eq_some_iff.2 h, Option.getD_some, Option.some_inj]

/-- Arguments that all spell options are read into the map of these options, the last of each name
counting. -/
theorem foldlM_given (h : ∀ a ∈ arguments, ∃ name v, Spells a name v) (o : Options) :
    arguments.foldlM given o =
      .ok ((arguments.map spelled).foldl (fun o g => o.insert g.1 g.2) o) := by
  induction arguments generalizing o with
  | nil => rfl
  | cons a arguments ih =>
    obtain ⟨⟨name, v, ha⟩, harguments⟩ := List.forall_mem_cons.1 h
    rw [List.foldlM_cons, given_of_spells ha, List.map_cons, List.foldl_cons,
      (spelled_eq_iff ⟨name, v, ha⟩).2 ha]
    exact ih harguments _

/-- The first argument that spells no option ends the reading. -/
theorem parse_eq_error (hbefore : ∀ b ∈ before, ∃ name v, Spells b name v)
    (ha : ¬∃ name v, Spells a name v) : parse (before ++ a :: after) = .error (.unknown a) := by
  rw [parse_eq_foldlM, List.foldlM_append, foldlM_given hbefore]
  change (a :: after).foldlM given _ = _
  rw [List.foldlM_cons, given_of_not_spells ha]
  rfl

/-- Arguments all spell options, or there is a first one that spells none. -/
theorem all_spell_or_first (arguments : List Bytes) :
    (∀ a ∈ arguments, ∃ name v, Spells a name v) ∨
      ∃ before a after, arguments = before ++ a :: after ∧
        (∀ b ∈ before, ∃ name v, Spells b name v) ∧ ¬∃ name v, Spells a name v := by
  induction arguments with
  | nil => exact Or.inl fun a ha => absurd ha List.not_mem_nil
  | cons a arguments ih =>
    by_cases ha : ∃ name v, Spells a name v
    · rcases ih with hall | ⟨before, b, after, rfl, hbefore, hb⟩
      · exact Or.inl (List.forall_mem_cons.2 ⟨ha, hall⟩)
      · exact Or.inr ⟨a :: before, b, after, rfl, List.forall_mem_cons.2 ⟨ha, hbefore⟩, hb⟩
    · exact Or.inr ⟨[], a, arguments, rfl, fun b hb => absurd hb List.not_mem_nil, ha⟩

/-- Arguments are accepted where each of them spells an option; later ones replace earlier ones. -/
theorem parse_eq_ok_iff :
    parse arguments = .ok o ↔ (∀ a ∈ arguments, ∃ name v, Spells a name v) ∧
      o = .ofList (arguments.map spelled) := by
  rcases all_spell_or_first arguments with hall | ⟨before, a, after, rfl, hbefore, ha⟩
  · rw [parse_eq_foldlM, foldlM_given hall, Except.ok.injEq, ByteMap.ofList]
    exact ⟨fun h => ⟨hall, h.symm⟩, fun h => h.2.symm⟩
  · rw [parse_eq_error hbefore ha]
    exact ⟨fun h => (by cases h), fun h => absurd (h.1 a (by simp)) ha⟩

/-- The value of an option is that of the last argument that spells it. -/
theorem find?_ofList_spelled (hall : ∀ a ∈ arguments, ∃ name v, Spells a name v) :
    (ByteMap.ofList (arguments.map spelled)).find? name = some v ↔
      ∃ before a after, arguments = before ++ a :: after ∧ Spells a name v ∧
        ∀ b ∈ after, ∀ w, ¬Spells b name w := by
  rw [ByteMap.find?_ofList_eq_some_iff]
  constructor
  · rintro ⟨gs, hs, hmap, hhs⟩
    obtain ⟨before, rest, rfl, -, hrest⟩ := List.map_eq_append_iff.1 hmap
    obtain ⟨a, after, rfl, ha, rfl⟩ := List.map_eq_cons_iff.1 hrest
    refine ⟨before, a, after, rfl, (spelled_eq_iff (hall a (by simp))).1 ha, fun b hb w hw => ?_⟩
    refine hhs _ (List.mem_map_of_mem hb) ?_
    rw [(spelled_eq_iff ⟨name, w, hw⟩).2 hw]
  · rintro ⟨before, a, after, rfl, ha, hafter⟩
    refine ⟨before.map spelled, after.map spelled, ?_, fun g hg heq => ?_⟩
    · rw [List.map_append, List.map_cons, (spelled_eq_iff ⟨name, v, ha⟩).2 ha]
    · obtain ⟨b, hb, rfl⟩ := List.mem_map.1 hg
      refine hafter b hb (spelled b).2 ((spelled_eq_iff (hall b (by simp [hb]))).1 ?_)
      rw [← heq]

/-- **The arguments are read by their grammar.** -/
structure ReadByGrammar (arguments : List Bytes) : Prop where
  /-- the arguments are accepted exactly when each of them spells an option -/
  accepted : (∃ o, parse arguments = .ok o) ↔ ∀ a ∈ arguments, ∃ name v, Spells a name v
  /-- the names are those that occur -/
  names : ∀ o, parse arguments = .ok o → ∀ name,
    o.contains name = true ↔ ∃ a ∈ arguments, ∃ v, Spells a name v
  /-- the value of a name is that of the last argument that spells it -/
  values : ∀ o, parse arguments = .ok o → ∀ name v, o.find? name = some v ↔
    ∃ before a after, arguments = before ++ a :: after ∧ Spells a name v ∧
      ∀ b ∈ after, ∀ w, ¬Spells b name w
  /-- neighbours of different names can change places -/
  exchanged : ∀ before a b after name v name' w, arguments = before ++ a :: b :: after →
    Spells a name v → Spells b name' w → name ≠ name' →
    parse (before ++ b :: a :: after) = parse arguments
  /-- the error is the first argument that spells no option, and quotes it -/
  rejected : ∀ e, parse arguments = .error e ↔
    ∃ before a after, arguments = before ++ a :: after ∧
      (∀ b ∈ before, ∃ name v, Spells b name v) ∧ (¬∃ name v, Spells a name v) ∧
      e = .unknown a ∧ e.kind = .invalidArgument ∧ e.message = ascii "Cannot parse option: " ++ a

/-- **Options are read by their grammar**: for every list of arguments, whatever bytes they have.
The grammar of one argument is that of the regular expression. -/
theorem parse_grammar (arguments : List Bytes) :
    ReadByGrammar arguments ∧ ∀ a name v, Spells a name v ↔
      ∃ captures, pattern.Matches a captures ∧ captures.lookup 1 = some name ∧
        (captures.lookup 2).getD [] = v := by
  refine ⟨?_, fun a name v => spells_iff_matches⟩
  constructor
  case accepted =>
    exact ⟨fun ⟨o, h⟩ => (parse_eq_ok_iff.1 h).1, fun h => ⟨_, parse_eq_ok_iff.2 ⟨h, rfl⟩⟩⟩
  case names =>
    intro o h name
    obtain ⟨hall, rfl⟩ := parse_eq_ok_iff.1 h
    rw [ByteMap.contains_ofList]
    constructor
    · rintro ⟨g, hg, rfl⟩
      obtain ⟨a, ha, rfl⟩ := List.mem_map.1 hg
      exact ⟨a, ha, (spelled a).2, (spelled_eq_iff (hall a ha)).1 rfl⟩
    · rintro ⟨a, ha, v, hv⟩
      exact ⟨(name, v), List.mem_map.2 ⟨a, ha, (spelled_eq_iff (hall a ha)).2 hv⟩, rfl⟩
  case values =>
    intro o h name v
    obtain ⟨hall, rfl⟩ := parse_eq_ok_iff.1 h
    exact find?_ofList_spelled hall
  -- neighbours with different names are entered into different places of the map
  case exchanged =>
    rintro before a b after name v name' w rfl ha hb hne
    rw [parse_eq_foldlM, parse_eq_foldlM, List.foldlM_append, List.foldlM_append]
    refine bind_congr fun o => ?_
    rw [List.foldlM_cons, List.foldlM_cons, given_of_spells ha, given_of_spells hb]
    change (given _ a >>= _) = (given _ b >>= _)
    rw [given_of_spells ha, given_of_spells hb, ByteMap.insert_comm hne]
  case rejected =>
    refine fun e => ⟨fun h => ?_, ?_⟩
    · rcases all_spell_or_first arguments with hall | ⟨before, a, after, rfl, hbefore, ha⟩
      · rw [parse_eq_ok_iff.2 ⟨hall, rfl⟩] at h
        cases h
      · rw [parse_eq_error hbefore ha] at h
        exact ⟨before, a, after, rfl, hbefore, ha, (Except.error.inj h).symm,
          (Except.error.inj h) ▸ rfl, (Except.error.inj h) ▸ rfl⟩
    · rintro ⟨before, a, after, rfl, hbefore, ha, rfl, -⟩
      exact parse_eq_error hbefore ha

/-- The last file counts, and a value can have equals signs, dashes and line feeds. -/
example : parse [ascii "--sqlite=a.db", ascii "--verbose", ascii "--sqlite=--b=\n"] =
    .ok (.ofList [(sqlite, ascii "--b=\n"), (verbose, [])]) := by
  decide

end Options

end SqlPlan
