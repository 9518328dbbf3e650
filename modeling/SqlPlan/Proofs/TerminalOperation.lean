import SqlPlan.Proofs.SharedCache
import SqlPlan.Terminal

/-!
# What terminal operations do

All terminal operations do the same, apart from what they make of the result: a statement is built
and prepared, and what was prepared goes to the executor, which executes it or opens a stream on
it. `Terminal` lists the operations with the statement that each one needs (`Terminal.statement`)
and what becomes of it (`Terminal.handover`); `Terminal.after_of_ok` says that this is what they
do, and `Handle.outcome_prepare` what preparing comes to, with a cache and without one.
-/

namespace SqlPlan

variable {σ κ : Type}

/-! ## Terminal operations -/

/-- A terminal operation, with all that it takes besides the query. -/
inductive Terminal (σ : Type) where
  /-- all rows -/
  | toList (shape : Entity) (t : Token σ)
  /-- the first row, which there must be -/
  | first (shape : Entity) (t : Token σ)
  /-- the first row, if there is one -/
  | first? (shape : Entity) (t : Token σ)
  /-- the only row, which there must be -/
  | single (shape : Entity) (t : Token σ)
  /-- the only row, if there is one -/
  | single? (shape : Entity) (t : Token σ)
  /-- the number of rows -/
  | count (t : Token σ)
  /-- are there rows? -/
  | any (t : Token σ)
  /-- are there rows of the query for which the predicate holds? -/
  | anyWhere (q : Query) (p : Expr) (t : Token σ)
  /-- does the predicate hold for all rows of the query? -/
  | every (q : Query) (p : Expr) (t : Token σ)
  /-- a stream on the rows -/
  | stream (t : Token σ)
  /-- the compiled form of the query -/
  | compiled

/-- What becomes of a statement once it is prepared. -/
inductive Handover (σ : Type) where
  /-- nothing -/
  | kept
  /-- the executor executes it -/
  | executed (t : Token σ)
  /-- the executor opens a stream on it -/
  | streamed (t : Token σ)

namespace Handover

/-- The session once the executor has got the statement. -/
def after (b : Backend σ κ) (st : Statement) (s : SessionState σ) : Handover σ → SessionState σ
  | kept => s
  | executed t => { s with executor := ((b.execute st t).outcome s.executor).2 }
  | streamed t => { s with executor := ((b.stream st t).outcome s.executor).2 }

/-- The statement, if the executor gets it. -/
def handed? (st : Statement) : Handover σ → Option Statement
  | kept => none
  | executed _ | streamed _ => some st

/-- The executor does not know of the cache. -/
@[simp] theorem cache_after (b : Backend σ κ) (st : Statement) (s : SessionState σ)
    (x : Handover σ) : (x.after b st s).cache = s.cache := by
  cases x <;> rfl

end Handover

namespace Terminal

/-- The session after the operation. -/
def after (Γ : Catalog) (h : Handle σ κ) (s : SessionState σ) : Terminal σ → SessionState σ
  | toList shape t => ((h.toList Γ shape t).outcome s).2
  | first shape t => ((h.first Γ shape t).outcome s).2
  | first? shape t => ((h.first? Γ shape t).outcome s).2
  | single shape t => ((h.single Γ shape t).outcome s).2
  | single? shape t => ((h.single? Γ shape t).outcome s).2
  | count t => ((h.count Γ t).outcome s).2
  | any t => ((h.any Γ t).outcome s).2
  | anyWhere q p t => ((h.anyWhere Γ q p t).outcome s).2
  | every q p t => ((h.every Γ q p t).outcome s).2
  | stream t => ((h.stream Γ t).outcome s).2
  | compiled => ((h.compiled Γ).outcome s).2

/-- The statement that the operation needs. -/
def statement (Γ : Catalog) (p : Plan) : Terminal σ → Except TranslationError Statement
  | toList .. | stream _ | compiled => p.compile Γ
  | first .. | first? .. => p.limitedStatement Γ 1
  | single .. | single? .. => p.limitedStatement Γ 2
  | count _ => p.countStatement Γ
  | any _ => p.existsStatement Γ
  | anyWhere q e _ => Fragment.statement <$> q.emitAny Γ e
  | every q e _ => Fragment.statement <$> q.emitEvery Γ e

/-- The result type of that statement, for rows that have one of their own. -/
def resultType (rows : Bytes) : Terminal σ → Bytes
  | count _ => ascii "count"
  | any _ | anyWhere .. | every .. => ascii "exists"
  | _ => rows

/-- What becomes of that statement. -/
def handover : Terminal σ → Handover σ
  | compiled => .kept
  | stream t => .streamed t
  | toList _ t | first _ t | first? _ t | single _ t | single? _ t | count t | any t
  | anyWhere _ _ t | every _ _ t => .executed t

end Terminal

/-! ## What is prepared -/

/-- A statement to prepare, with what its fingerprint is made of besides. -/
structure Preparation where
  /-- the table of the query -/
  table : Bytes
  /-- the type of the result -/
  resultType : Bytes
  /-- the statement -/
  statement : Statement
deriving DecidableEq

namespace Preparation

/-- The key under which it is kept. -/
def fingerprint (p : Preparation) : Bytes := p.statement.fingerprint p.table p.resultType

/-- What compiling it gives. -/
def fresh (p : Preparation) : Compiled := ⟨p.statement, p.resultType⟩

/-- What stands in the cache under its fingerprint, if there is a cache. -/
def found? (p : Preparation) (s : SessionState σ) : Option Compiled :=
  s.cache.bind (·.find? p.fingerprint)

/-- The cache with it entered, or with one more hit where its fingerprint has an entry. -/
def entered (p : Preparation) (c : QueryCache) : QueryCache := (c.enter p.fingerprint p.fresh).2

/-- What the loggers are told of it. -/
def told (p : Preparation) (hit : Bool) : Event :=
  if hit then .cacheHit p.fingerprint else .compiled p.statement

/-- An entry stands, whatever is entered; and what is entered stands where there was none. -/
theorem find?_entered (p : Preparation) (c : QueryCache) (fp : Bytes) :
    (p.entered c).find? fp =
      if fp = p.fingerprint then some ((c.find? fp).getD p.fresh) else c.find? fp := by
  rw [entered, QueryCache.enter]
  split
  · rename_i old hold
    have hfind : QueryCache.find? { c with hits := c.hits + 1 } fp = c.find? fp := rfl
    rw [hfind]
    split
    · subst fp
      rw [hold, Option.getD_some]
    · rfl
  · rename_i hnone
    rw [QueryCache.find?_entered]
    split
    · subst fp
      rw [hnone, Option.getD_none]
    · rfl

end Preparation

/-! ## What terminal operations do -/

namespace Handle

variable {Γ : Catalog} {h : Handle σ κ} {b : Backend σ κ} {st : Statement}
  {built : Except TranslationError Statement} {s : SessionState σ}

/-- **What preparing a statement comes to.** Without a cache it is compiled; with a cache, what
stands under its fingerprint is given, and it is entered where nothing stands. -/
theorem outcome_prepare (hb : h.backend = some b) {p : Preparation}
    (hp : p.table = (Γ h.plan.source).table) :
    (h.prepare Γ p.statement p.resultType).outcome s =
      (.ok ((p.found? s).getD p.fresh),
        { executor := s.executor.notify (p.told (p.found? s).isSome)
          cache := s.cache.map p.entered }) := by
  have hannounce : ∀ e x, h.announce e x = x.notify e := by
    intro e x
    rw [announce, hb]
    rfl
  have hfresh : ∀ x, (h.compileFresh p.statement p.resultType).outcome x =
      (.ok p.fresh, x.notify (.compiled p.statement)) := by
    intro x
    rw [← hannounce]
    rfl
  have hkey : h.fingerprint Γ p.statement p.resultType = p.fingerprint := by
    rw [fingerprint, ← hp]
    rfl
  obtain ⟨x, cache⟩ := s
  rw [prepare]
  simp only [Action.outcome_bind, Action.outcome_get]
  cases cache with
  | none =>
    simp only [Option.isNone_none, if_true, SessionState.onExecutor, Action.outcome_on, hfresh]
    rfl
  | some c =>
    simp only [Option.isNone_some, Bool.false_eq_true, if_false, SessionState.onCache,
      Action.outcome_bind, Action.outcome_on, Option.getD_some, QueryCache.outcome_getOrCompile,
      hkey, Preparation.found?, Preparation.entered, Option.bind_some, Option.map_some]
    -- what is found is given, and what is not found is compiled and entered
    cases hfind : c.find? p.fingerprint with
    | none =>
      simp only [QueryCache.lookUp, QueryCache.enter, hfind, hfresh]
      rfl
    | some q =>
      simp only [QueryCache.lookUp, QueryCache.enter, hfind, hannounce]
      rfl

/-- Executing a statement is preparing it and handing what was prepared to the executor. -/
theorem reached_run (hb : h.backend = some b) (resultType : Bytes) (t : Token σ) {q : Compiled}
    {prepared : SessionState σ} (hq : (h.prepare Γ st resultType).outcome s = (.ok q, prepared)) :
    ((h.run Γ st resultType t).outcome s).2 =
      (Handover.executed t).after b q.statement prepared := by
  have hattached : h.attached = .ok b := by rw [attached, hb]
  rw [run]
  simp only [Action.outcome_bind, Action.outcome_ofExcept, hattached, hq]
  rfl

/-- The session after executing a statement, if there is one. -/
def ran (h : Handle σ κ) (Γ : Catalog) (built : Except TranslationError Statement)
    (resultType : Bytes) (t : Token σ) (s : SessionState σ) : SessionState σ :=
  match built with
  | .error _ => s
  | .ok st => ((h.run Γ st resultType t).outcome s).2

/-- Fetching rows runs one statement; reading the records out of the result reaches nothing
further. -/
theorem reached_rows (shape : Entity) (t : Token σ) :
    ((h.rows Γ shape built t).outcome s).2 = h.ran Γ built h.resultType t s := by
  cases built with
  | error err => rfl
  | ok st => exact Action.reached_bind (a := h.run Γ st h.resultType t) (fun _ _ => rfl) s

theorem reached_number (resultType column : Bytes) (t : Token σ) :
    ((h.number Γ built resultType column t).outcome s).2 = h.ran Γ built resultType t s := by
  cases built with
  | error err => rfl
  | ok st => exact Action.reached_bind (a := h.run Γ st resultType t) (fun _ _ => rfl) s

theorem reached_test (t : Token σ) :
    ((h.test Γ built t).outcome s).2 = h.ran Γ built (ascii "exists") t s :=
  (Action.reached_bind (fun _ _ => rfl) s).trans (reached_number _ _ t)

/-- The first row is fetched by the statement that is limited to one. -/
theorem reached_first? (shape : Entity) (t : Token σ) :
    ((h.first? Γ shape t).outcome s).2 =
      h.ran Γ (h.plan.limitedStatement Γ 1) h.resultType t s :=
  (Action.reached_bind (fun _ _ => rfl) s).trans (reached_rows shape t)

/-- A single row is fetched by the statement that is limited to two. -/
theorem reached_single? (shape : Entity) (t : Token σ) :
    ((h.single? Γ shape t).outcome s).2 =
      h.ran Γ (h.plan.limitedStatement Γ 2) h.resultType t s :=
  (Action.reached_bind (fun _ _ => rfl) s).trans (reached_rows shape t)

/-- Where the plan has a statement, compiling it is preparing that. -/
theorem outcome_compiled_ok (hst : h.plan.compile Γ = .ok st) :
    (h.compiled Γ).outcome s = (h.prepare Γ st h.resultType).outcome s := by
  rw [compiled, hst, Action.outcome_bind]
  rfl

/-- Streaming prepares the statement and hands it to the backend once. -/
theorem reached_stream (hb : h.backend = some b) (hst : h.plan.compile Γ = .ok st) (t : Token σ)
    {q : Compiled} {prepared : SessionState σ}
    (hq : (h.prepare Γ st h.resultType).outcome s = (.ok q, prepared)) :
    ((h.stream Γ t).outcome s).2 = (Handover.streamed t).after b q.statement prepared := by
  have hattached : h.attached = .ok b := by rw [attached, hb]
  rw [stream, Action.outcome_bind, outcome_compiled_ok hst, hq]
  simp only [Action.outcome_bind, Action.outcome_ofExcept, hattached]
  rfl

end Handle

namespace Terminal

variable {Γ : Catalog} {h : Handle σ κ} {b : Backend σ κ} {op : Terminal σ} {s : SessionState σ}

/-- An operation whose statement is executed does what that does. -/
theorem after_of_executed {t : Token σ} (hop : op.handover = .executed t) :
    op.after Γ h s = h.ran Γ (op.statement Γ h.plan) (op.resultType h.resultType) t s := by
  cases op <;> cases hop
  case toList shape => exact Handle.reached_rows shape t
  case first shape =>
    exact (Action.reached_bind (fun _ _ => rfl) s).trans (Handle.reached_first? shape t)
  case first? shape => exact Handle.reached_first? shape t
  case single shape =>
    exact (Action.reached_bind (fun _ _ => rfl) s).trans (Handle.reached_single? shape t)
  case single? shape => exact Handle.reached_single? shape t
  case count => exact Handle.reached_number _ _ t
  case any => exact Handle.reached_test t
  case anyWhere => exact Handle.reached_test t
  case every => exact Handle.reached_test t

/-- A statement that cannot be built leaves the session as it is. -/
theorem after_of_error {err : TranslationError} (hop : op.statement Γ h.plan = .error err) :
    op.after Γ h s = s := by
  cases hx : op.handover with
  | executed t => rw [after_of_executed hx, hop, Handle.ran]
  | kept =>
    cases op <;> cases hx
    rw [statement] at hop
    rw [after, Handle.compiled, hop]
    rfl
  | streamed t =>
    cases op <;> cases hx
    rw [statement] at hop
    rw [after, Handle.stream, Handle.compiled, hop]
    rfl

/-- **What an operation makes of a session**: its statement is prepared, and what was prepared is
handed over. -/
theorem after_of_ok {st : Statement} (hb : h.backend = some b)
    (hop : op.statement Γ h.plan = .ok st) {q : Compiled} {prepared : SessionState σ}
    (hq : (h.prepare Γ st (op.resultType h.resultType)).outcome s = (.ok q, prepared)) :
    op.after Γ h s = op.handover.after b q.statement prepared := by
  cases hx : op.handover with
  | executed t => rw [after_of_executed hx, hop, Handle.ran, Handle.reached_run hb _ t hq]
  | kept =>
    cases op <;> cases hx
    rw [after, Handle.outcome_compiled_ok hop]
    exact congrArg (·.2) hq
  | streamed t =>
    cases op <;> cases hx
    exact Handle.reached_stream hb hop t hq

end Terminal

end SqlPlan
