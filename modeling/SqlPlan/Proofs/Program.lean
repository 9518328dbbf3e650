import SqlPlan.Proofs.PlanRedaction

/-!
# Programs that differ in their data only

A program is a list of calls: they declare properties, build expressions, items of a projection and
plans, and name earlier results by their places. A call that fails leaves the workspace as it was,
and the program goes on. `Workspace.run_eq_of_redact_eq` says that literal data shows nowhere: two
programs that differ only in the data of their constants, LIKE texts, lists of items and parameters
of the caller's fragments fail at the same calls with the same errors, and whatever is asked of a
plan that they have built, the SQL is the same and has the same number of parameters.
-/

namespace SqlPlan

/-! ## Programs -/

/-- What a program has built so far. -/
structure Workspace where
  /-- the entities -/
  catalog : Catalog
  /-- the expressions -/
  exprs : List Expr := []
  /-- the items of projections -/
  items : List Item := []
  /-- the plans -/
  plans : List Plan := []

/-- A call of a program; numbers without a unit are places of earlier results. -/
inductive Call where
  /-- declares a property -/
  | declare (id : EntityId) (name : Bytes) (f : Field) (isKey isGenerated : Bool) (column : Bytes)
  /-- the column of a property, by its name -/
  | column (id : EntityId) (name : Bytes)
  /-- the column of a property, by its field -/
  | member (id : EntityId) (f : Field)
  /-- a constant -/
  | literal (v : Value)
  /-- arithmetic -/
  | arith (op : ArithOp) (l r : Nat)
  /-- a function of a text -/
  | call (fn : TextFunction) (e : Nat)
  /-- the number of rows of a group -/
  | countRows
  /-- a function over the rows of a group -/
  | aggregate (fn : Aggregate) (e : Nat)
  /-- a member of the group key, or all of it -/
  | key (index : Option Nat)
  /-- an expression as a predicate -/
  | predicate (e : Nat)
  /-- is the value NULL, or is it not -/
  | nullCheck (negated : Bool) (e : Nat)
  /-- two predicates together -/
  | logic (op : LogicOp) (l r : Nat)
  /-- a comparison -/
  | compare (op : CompareOp) (l r : Nat)
  /-- the opposite of a predicate -/
  | negate (e : Nat)
  /-- a text that holds another at an anchor -/
  | like (e : Nat) (text : Bytes) (anchor : Anchor)
  /-- a value among some -/
  | oneOf (e : Nat) (items : List Value)
  /-- SQL of the caller, with its parameters -/
  | raw (sql : Bytes) (params : List Value)
  /-- an item with a column of its own -/
  | item (column : Bytes) (e : Nat)
  /-- an item for a field of a shape -/
  | assign (shape : EntityId) (f : Field) (e : Nat)
  /-- all rows of an entity that must have a table -/
  | source (id : EntityId)
  /-- all rows of an entity as it is -/
  | bare (id : EntityId)
  /-- a predicate on rows -/
  | filter (p e : Nat)
  /-- a new ordering -/
  | orderBy (p e : Nat) (descending : Bool)
  /-- a further term of the ordering -/
  | thenBy (p e : Nat) (descending : Bool)
  /-- a new ordering of a set operation, by a column of its result -/
  | orderByColumn (p : Nat) (column : Bytes) (descending : Bool)
  /-- a further term of it -/
  | thenByColumn (p : Nat) (column : Bytes) (descending : Bool)
  /-- at most so many rows -/
  | take (p : Nat) (rows : Int)
  /-- after so many rows -/
  | skip (p : Nat) (rows : Int)
  /-- equal rows once -/
  | dedup (p : Nat)
  /-- a projection -/
  | select (p : Nat) (items : List Nat)
  /-- a second entity -/
  | joinWith (p : Nat) (kind : JoinKind) (inner : EntityId) (outerKey innerKey : Nat)
  /-- groups -/
  | groupBy (p : Nat) (keys : List Nat)
  /-- a predicate on groups -/
  | filterGroups (p e : Nat)
  /-- a set operation on two plans -/
  | compose (l : Nat) (op : SetOp) (r : Nat)

/-- What a call builds. -/
inductive Built where
  /-- an entity with one more property -/
  | entity (id : EntityId) (e : Entity)
  /-- an expression -/
  | expr (e : Expr)
  /-- an item of a projection -/
  | item (i : Item)
  /-- a plan -/
  | plan (p : Plan)

/-- How a call came out. -/
inductive Outcome where
  /-- a place it names holds nothing that it applies to -/
  | missing
  /-- it was refused -/
  | failed (e : TranslationError)
  /-- it built something -/
  | done
deriving DecidableEq

namespace Workspace

/-- The query at a place, which must hold no set operation. -/
def query? (w : Workspace) (p : Nat) : Option Query :=
  match w.plans[p]? with
  | some (.query q) => some q
  | _ => none

/-- The plan that a building function of queries gives. -/
def builtQuery (x : Except TranslationError Query) : Except TranslationError Built :=
  (fun q => Built.plan (.query q)) <$> x

/-- A set operation with another tail. -/
def retail (f : Tail → Except TranslationError Tail) :
    Plan → Option (Except TranslationError Built)
  | .query _ => none
  | .combine op l r t => some ((fun t => Built.plan (.combine op l r t)) <$> f t)

/-- Carries out a call on what the workspace has. -/
def perform (w : Workspace) : Call → Option (Except TranslationError Built)
  | .declare id name f isKey isGenerated column =>
    some (Built.entity id <$> (w.catalog id).declare name f isKey isGenerated column)
  | .column id name => some (Built.expr <$> (w.catalog id).columnNamed id name)
  | .member id f => some (Built.expr <$> (w.catalog id).columnOf id f)
  | .literal v => some (.ok (.expr (.literal v)))
  | .arith op l r => do
    let l ← w.exprs[l]?
    let r ← w.exprs[r]?
    return .ok (.expr (.arith op l r))
  | .call fn e => do return .ok (.expr (.call fn (← w.exprs[e]?)))
  | .countRows => some (.ok (.expr .countRows))
  | .aggregate fn e => do return .ok (.expr (.aggregate fn (← w.exprs[e]?)))
  | .key index => some (.ok (.expr (.key index)))
  | .predicate e => do return .ok (.expr (← w.exprs[e]?).toPredicate)
  | .nullCheck negated e => do return .ok (.expr (.nullCheck negated (← w.exprs[e]?)))
  | .logic op l r => do
    let l ← w.exprs[l]?
    let r ← w.exprs[r]?
    return .ok (.expr (.logic op l.toPredicate r.toPredicate))
  | .compare op l r => do
    let l ← w.exprs[l]?
    let r ← w.exprs[r]?
    return .ok (.expr (.compare op l r))
  | .negate e => do return .ok (.expr (← w.exprs[e]?).negate)
  | .like e text anchor => do return .ok (.expr (.like (← w.exprs[e]?) text anchor))
  | .oneOf e items => do return .ok (.expr (.oneOf (← w.exprs[e]?) items))
  | .raw sql params => some (Built.expr <$> Expr.raw? sql params)
  | .item column e => do return .ok (.item ⟨column, ← w.exprs[e]?⟩)
  | .assign shape f e => do return Built.item <$> (w.catalog shape).assign f (← w.exprs[e]?)
  | .source id => some (builtQuery (Query.start w.catalog id))
  | .bare id => some (.ok (.plan (.query { source := id })))
  | .filter p e => do return builtQuery ((← w.query? p).filter w.catalog (← w.exprs[e]?))
  | .orderBy p e descending => do
    return Built.plan <$> (← w.plans[p]?).orderBy w.catalog (← w.exprs[e]?) descending
  | .thenBy p e descending => do
    return Built.plan <$> (← w.plans[p]?).thenBy w.catalog (← w.exprs[e]?) descending
  | .orderByColumn p column descending => do
    retail (·.orderBy column descending) (← w.plans[p]?)
  | .thenByColumn p column descending => do
    retail (·.thenBy column descending) (← w.plans[p]?)
  | .take p rows => do return Built.plan <$> (← w.plans[p]?).take rows
  | .skip p rows => do return Built.plan <$> (← w.plans[p]?).skip rows
  | .dedup p => do return .ok (.plan (.query (← w.query? p).dedup))
  | .select p items => do
    return builtQuery ((← w.query? p).select w.catalog (← items.mapM (w.items[·]?)))
  | .joinWith p kind inner outerKey innerKey => do
    return builtQuery ((← w.query? p).joinWith w.catalog kind inner (← w.exprs[outerKey]?)
      (← w.exprs[innerKey]?))
  | .groupBy p keys => do
    return builtQuery ((← w.query? p).groupBy w.catalog (← keys.mapM (w.exprs[·]?)))
  | .filterGroups p e => do
    return builtQuery ((← w.query? p).filterGroups w.catalog (← w.exprs[e]?))
  | .compose l op r => do return .ok (.plan ((← w.plans[l]?).compose op (← w.plans[r]?)))

/-- Adds what was built; a declaration takes the place of the entity before. -/
def add (w : Workspace) : Built → Workspace
  | .entity id e => { w with catalog := fun i => if i = id then e else w.catalog i }
  | .expr e => { w with exprs := w.exprs ++ [e] }
  | .item i => { w with items := w.items ++ [i] }
  | .plan p => { w with plans := w.plans ++ [p] }

/-- One call: how it comes out, and the workspace after it. -/
def step (w : Workspace) (c : Call) : Outcome × Workspace :=
  match w.perform c with
  | none => (.missing, w)
  | some (.error e) => (.failed e, w)
  | some (.ok b) => (.done, w.add b)

/-- A whole program: how its calls come out, and the workspace at its end. -/
def run (w : Workspace) : List Call → List Outcome × Workspace
  | [] => ([], w)
  | c :: cs =>
    let (outcome, w) := w.step c
    let (outcomes, w) := w.run cs
    (outcome :: outcomes, w)

/-- What shows of the statement for a question about the plan at a place. -/
def shown (w : Workspace) (p : Nat) (a : Question) :
    Option (Option (Except TranslationError (Bytes × Nat))) :=
  w.plans[p]?.map fun p => p.shown w.catalog a

end Workspace

/-! ## Redaction -/

/-- The call without its data. -/
def Call.redact : Call → Call
  | .literal v => .literal v.redact
  | .like e _ anchor => .like e [] anchor
  | .oneOf e items => .oneOf e (items.map Value.redact)
  | .raw sql params => .raw sql (params.map fun _ => .null)
  | c => c

/-- What was built without its data. -/
def Built.redact : Built → Built
  | .entity id e => .entity id e
  | .expr e => .expr e.redact
  | .item i => .item i.redact
  | .plan p => .plan p.redact

namespace Workspace

/-- The workspace with everything in it redacted. -/
def redact (w : Workspace) : Workspace :=
  { w with
    exprs := w.exprs.map Expr.redact
    items := w.items.map Item.redact
    plans := w.plans.map Plan.redact }

variable (w : Workspace)

theorem getElem?_exprs_redact (i : Nat) : w.redact.exprs[i]? = w.exprs[i]?.map Expr.redact :=
  List.getElem?_map ..

theorem getElem?_items_redact (i : Nat) : w.redact.items[i]? = w.items[i]?.map Item.redact :=
  List.getElem?_map ..

theorem getElem?_plans_redact (i : Nat) : w.redact.plans[i]? = w.plans[i]?.map Plan.redact :=
  List.getElem?_map ..

/-- A set operation is no query, with its data or without. -/
theorem query?_redact (p : Nat) : w.redact.query? p = (w.query? p).map Query.redact := by
  rw [query?, query?, getElem?_plans_redact]
  cases w.plans[p]? with
  | none => rfl
  | some p => cases p <;> rfl

/-- Several places at once. -/
theorem mapM_redact {α : Type} {k : α → α} {look look' : Nat → Option α}
    (h : ∀ i, look' i = (look i).map k) (is : List Nat) :
    is.mapM look' = (is.mapM look).map (·.map k) := by
  induction is with
  | nil => rfl
  | cons i is ih =>
    rw [List.mapM_cons, List.mapM_cons, h, ih]
    cases look i with
    | none => rfl
    | some a => cases is.mapM look <;> rfl

theorem builtEntity_redact (id : EntityId) (x : Except TranslationError Entity) :
    Built.entity id <$> x = Built.redact <$> Built.entity id <$> x := by
  cases x <;> rfl

theorem columnNamed_redact (e : Entity) (id : EntityId) (name : Bytes) :
    Built.expr <$> e.columnNamed id name =
      Built.redact <$> Built.expr <$> e.columnNamed id name := by
  rw [Entity.columnNamed]
  cases e.lookup name <;> rfl

theorem columnOf_redact (e : Entity) (id : EntityId) (f : Field) :
    Built.expr <$> e.columnOf id f = Built.redact <$> Built.expr <$> e.columnOf id f := by
  rw [Entity.columnOf]
  cases e.bound? f <;> rfl

theorem builtItem_redact (x : Except TranslationError Item) :
    Built.item <$> Item.redact <$> x = Built.redact <$> Built.item <$> x := by
  cases x <;> rfl

theorem builtQuery_redact (x : Except TranslationError Query) :
    builtQuery (Query.redact <$> x) = Built.redact <$> builtQuery x := by
  cases x <;> rfl

/-- A query that was just begun holds no expression. -/
theorem start_redact (Γ : Catalog) (id : EntityId) :
    builtQuery (Query.start Γ id) = Built.redact <$> builtQuery (Query.start Γ id) := by
  rw [Query.start]
  split <;> rfl

theorem builtPlan_redact (x : Except TranslationError Plan) :
    Built.plan <$> Plan.redact <$> x = Built.redact <$> Built.plan <$> x := by
  cases x <;> rfl

/-- A place is looked up, and what is built with it is built redacted. -/
theorem look_redact {α : Type} {k : α → α} {f g : α → Option (Except TranslationError Built)}
    {o o' : Option α} (ho : o' = o.map k) (hfg : ∀ a, g (k a) = (f a).map (Built.redact <$> ·)) :
    (o' >>= g) = (o >>= f).map (Built.redact <$> ·) := by
  subst ho
  cases o with
  | none => rfl
  | some a => exact hfg a

/-- A change of the end of a set operation does not touch its operands. -/
theorem retail_redact (f : Tail → Except TranslationError Tail) (p : Plan) :
    retail f p.redact = (retail f p).map (Built.redact <$> ·) := by
  cases p with
  | query q => rfl
  | combine op l r t =>
    rw [Plan.redact, retail, retail]
    cases f t <;> rfl

/-- **A redacted call on a redacted workspace** builds what the call builds, redacted, or is refused
for the same reason. -/
theorem perform_redact (c : Call) :
    w.redact.perform c.redact = (w.perform c).map (Built.redact <$> ·) := by
  -- a place of the redacted workspace holds what it held, redacted
  have hexpr := w.getElem?_exprs_redact
  have hplan := w.getElem?_plans_redact
  have hquery := w.query?_redact
  have hcatalog : w.redact.catalog = w.catalog := rfl
  cases c with
  | declare id name f isKey isGenerated column => exact congrArg some (builtEntity_redact id _)
  | column id name => exact congrArg some (columnNamed_redact _ id name)
  | member id f => exact congrArg some (columnOf_redact _ id f)
  | literal v => rfl
  | arith op l r => exact look_redact (hexpr l) fun _ => look_redact (hexpr r) fun _ => rfl
  | call fn e => exact look_redact (hexpr e) fun _ => rfl
  | countRows => rfl
  | aggregate fn e => exact look_redact (hexpr e) fun _ => rfl
  | key index => rfl
  | predicate e =>
    refine look_redact (hexpr e) fun a => ?_
    rw [← a.redact_toPredicate]
    rfl
  | nullCheck negated e => exact look_redact (hexpr e) fun _ => rfl
  | logic op l r =>
    refine look_redact (hexpr l) fun a => look_redact (hexpr r) fun b => ?_
    rw [← a.redact_toPredicate, ← b.redact_toPredicate]
    rfl
  | compare op l r => exact look_redact (hexpr l) fun _ => look_redact (hexpr r) fun _ => rfl
  | negate e =>
    refine look_redact (hexpr e) fun a => ?_
    rw [← a.redact_negate]
    rfl
  | like e text anchor => exact look_redact (hexpr e) fun _ => rfl
  | oneOf e items => exact look_redact (hexpr e) fun _ => rfl
  | raw sql params =>
    refine congrArg some ((congrArg (Built.expr <$> ·) (Expr.raw?_redact sql params)).trans ?_)
    cases Expr.raw? sql params <;> rfl
  | item column e => exact look_redact (hexpr e) fun _ => rfl
  | assign shape f e =>
    refine look_redact (hexpr e) fun a => congrArg some ?_
    rw [hcatalog, Entity.assign_redact, builtItem_redact]
  | source id => exact congrArg some (start_redact _ id)
  | bare id => rfl
  | filter p e =>
    refine look_redact (hquery p) fun q => look_redact (hexpr e) fun a => congrArg some ?_
    rw [hcatalog, q.filter_redact, builtQuery_redact]
  | orderBy p e descending =>
    refine look_redact (hplan p) fun p => look_redact (hexpr e) fun a => congrArg some ?_
    rw [hcatalog, p.orderBy_redact, builtPlan_redact]
  | thenBy p e descending =>
    refine look_redact (hplan p) fun p => look_redact (hexpr e) fun a => congrArg some ?_
    rw [hcatalog, p.thenBy_redact, builtPlan_redact]
  | orderByColumn p column descending => exact look_redact (hplan p) (retail_redact _)
  | thenByColumn p column descending => exact look_redact (hplan p) (retail_redact _)
  | take p rows =>
    refine look_redact (hplan p) fun p => congrArg some ?_
    rw [p.take_redact, builtPlan_redact]
  | skip p rows =>
    refine look_redact (hplan p) fun p => congrArg some ?_
    rw [p.skip_redact, builtPlan_redact]
  | dedup p => exact look_redact (hquery p) fun _ => rfl
  | select p items =>
    refine look_redact (hquery p) fun q => ?_
    refine look_redact (mapM_redact w.getElem?_items_redact items) fun is => congrArg some ?_
    rw [hcatalog, q.select_redact, builtQuery_redact]
  | joinWith p kind inner outerKey innerKey =>
    refine look_redact (hquery p) fun q => look_redact (hexpr outerKey) fun a => ?_
    refine look_redact (hexpr innerKey) fun b => congrArg some ?_
    rw [hcatalog, q.joinWith_redact, builtQuery_redact]
  | groupBy p keys =>
    refine look_redact (hquery p) fun q => ?_
    refine look_redact (mapM_redact hexpr keys) fun ks => congrArg some ?_
    rw [hcatalog, q.groupBy_redact, builtQuery_redact]
  | filterGroups p e =>
    refine look_redact (hquery p) fun q => look_redact (hexpr e) fun a => congrArg some ?_
    rw [hcatalog, q.filterGroups_redact, builtQuery_redact]
  | compose l op r => exact look_redact (hplan l) fun _ => look_redact (hplan r) fun _ => rfl

/-! ## Runs side by side -/

/-- What is built goes to the end of the things of its kind. -/
theorem add_redact (b : Built) : (w.add b).redact = w.redact.add b.redact := by
  cases b with
  | entity id e => rfl
  | expr e => simp only [add, redact, Built.redact, List.map_append, List.map_singleton]
  | item i => simp only [add, redact, Built.redact, List.map_append, List.map_singleton]
  | plan p => simp only [add, redact, Built.redact, List.map_append, List.map_singleton]

/-- One redacted call comes out as the call does, and leaves the redacted workspace. -/
theorem step_redact (c : Call) :
    w.redact.step c.redact = ((w.step c).1, (w.step c).2.redact) := by
  rw [step, step, perform_redact]
  cases w.perform c with
  | none => rfl
  | some x =>
    cases x with
    | error e => rfl
    | ok b => exact congrArg (Prod.mk Outcome.done) (w.add_redact b).symm

/-- A run goes step by step, and keeps what each step shows. -/
theorem run_cons (c : Call) (cs : List Call) :
    w.run (c :: cs) =
      ((w.step c).1 :: ((w.step c).2.run cs).1, ((w.step c).2.run cs).2) :=
  rfl

/-- A redacted program comes out call by call as the program does. -/
theorem run_redact (cs : List Call) :
    w.redact.run (cs.map Call.redact) = ((w.run cs).1, (w.run cs).2.redact) := by
  induction cs generalizing w with
  | nil => rfl
  | cons c cs ih => rw [List.map_cons, run_cons, run_cons, step_redact, ih]

/-- A redacted workshop shows of its plans what the workshop does. -/
theorem shown_redact (p : Nat) (a : Question) : w.redact.shown p a.redact = w.shown p a := by
  rw [shown, shown, getElem?_plans_redact, Option.map_map]
  exact congrArg (Option.map · w.plans[p]?) (funext fun p => p.shown_redact a)

/-- **Literal data never shows.** Programs that differ in their data only fail at the same calls
with the same errors; and what is asked of a plan that they have built gets the same SQL with the
same number of parameters, or the same error, from both.

Redaction commutes with every call, so both runs leave the run of one redacted program. -/
theorem run_eq_of_redact_eq {w w' : Workspace} {cs cs' : List Call}
    (hw : w.redact = w'.redact) (hcs : cs.map Call.redact = cs'.map Call.redact) :
    (w.run cs).1 = (w'.run cs').1 ∧
    ∀ (p : Nat) (a a' : Question), a.redact = a'.redact →
      (w.run cs).2.shown p a = (w'.run cs').2.shown p a' := by
  -- both runs are compared with the one run that redaction leaves of them
  have hrun := w.run_redact cs
  rw [hw, hcs, w'.run_redact cs'] at hrun
  obtain ⟨houtcomes, hend⟩ := Prod.mk.inj hrun
  refine ⟨houtcomes.symm, ?_⟩
  intro p a a' ha
  rw [← shown_redact _ p a, ← shown_redact _ p a', ha, hend]

/-! ### Two searches -/

/-- A table of notes with a title. -/
def notes : Workspace :=
  { catalog := .single (ascii "notes") [(ascii "Title", ascii "title")] }

/-- Looks for notes by title: among two titles of which one is NULL, or by a part of the title, and
asks for too many parameters in between. -/
def search (title part parameter : Bytes) : List Call :=
  [.source 0, .column 0 (ascii "Title"), .oneOf 0 [.text title, .null], .like 0 part .anywhere,
    .logic .or 1 2, .raw (ascii "length(title) > ? + ?") [.text parameter], .filter 0 3]

/-- Two searches for different titles, parts and parameters fail at the same calls, and what is
asked of their plans shows the same. -/
theorem run_eq_of_redact_eq_search :
    notes.redact = notes.redact ∧
    (search (ascii "tea") (ascii "%") (ascii "3")).map Call.redact =
      (search (ascii "'; --") (ascii "?") []).map Call.redact ∧
    ((notes.run (search (ascii "tea") (ascii "%") (ascii "3"))).1 =
        (notes.run (search (ascii "'; --") (ascii "?") [])).1 ∧
      ∀ (p : Nat) (a a' : Question), a.redact = a'.redact →
        (notes.run (search (ascii "tea") (ascii "%") (ascii "3"))).2.shown p a =
          (notes.run (search (ascii "'; --") (ascii "?") [])).2.shown p a') :=
  ⟨rfl, rfl, run_eq_of_redact_eq rfl rfl⟩

end Workspace

end SqlPlan
