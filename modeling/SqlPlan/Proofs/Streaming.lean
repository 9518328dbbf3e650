import Mathlib.Logic.Relation
import SqlPlan.Proofs.Execution
import SqlPlan.Scripted.Engine

/-!
# Streams give the rows of runs

A statement can be run to its end, or its rows can be taken from a stream one by one. The embedded
executor has a loop of its own for each: `drain` steps a statement to its end, and `fetch` steps it
once and remembers whether there is more to come.

`Streamed` says what taking rows comes to until there is no row or a failure. The main statement is
`streamed_iff_run`: under a token that is never cancelled, a stream gives the rows that a run steps
through, and it ends as the run does.
-/

namespace SqlPlan

variable {σ κ τ : Type}

/-! ## Taking all rows of a stream -/

namespace Backend

/-- **Rows are taken from a stream** until there is none, or until taking one fails. -/
inductive Reads (b : Backend σ κ) : κ × Host σ → List Row → Except Error Unit → Prop where
  /-- there is no row -/
  | exhausted {s s' : κ × Host σ} : b.fetch.outcome s = (.ok none, s') → Reads b s [] (.ok ())
  /-- taking a row fails -/
  | failed {s s' : κ × Host σ} {err : Error} :
      b.fetch.outcome s = (.error err, s') → Reads b s [] (.error err)
  /-- there is a row, and maybe more -/
  | row {s s' : κ × Host σ} {r : Row} {rows : List Row} {ended : Except Error Unit} :
      b.fetch.outcome s = (.ok (some r), s') → Reads b s' rows ended →
      Reads b s (r :: rows) ended

/-- **A stream is opened on a statement and its rows are taken**; no row is taken when it cannot be
opened. -/
inductive Streamed (b : Backend σ κ) (st : Statement) (t : Token σ) (h : Host σ) :
    List Row → Except Error Unit → Prop where
  /-- the stream cannot be opened -/
  | refused {err : Error} {h' : Host σ} :
      (b.openStream st t).outcome h = (.error err, h') → Streamed b st t h [] (.error err)
  /-- the stream is opened -/
  | opened {c : κ} {h' : Host σ} {rows : List Row} {ended : Except Error Unit} :
      (b.openStream st t).outcome h = (.ok c, h') → b.Reads (c, h') rows ended →
      Streamed b st t h rows ended

variable {b : Backend σ κ}

/-- Taking rows comes to one thing only. -/
theorem Reads.unique {s : κ × Host σ} {rows rows' : List Row} {ended ended' : Except Error Unit}
    (hreads : b.Reads s rows ended) (hreads' : b.Reads s rows' ended') :
    rows = rows' ∧ ended = ended' := by
  -- the engine answers a fetch in one way, so two readings take the same step
  induction hreads generalizing rows' ended' with
  | exhausted hfetch =>
    cases hreads' with
    | exhausted _ => exact ⟨rfl, rfl⟩
    | failed hfetch' => cases hfetch.symm.trans hfetch'
    | row hfetch' _ => cases hfetch.symm.trans hfetch'
  | failed hfetch =>
    cases hreads' with
    | exhausted hfetch' => cases hfetch.symm.trans hfetch'
    | failed hfetch' =>
      cases hfetch.symm.trans hfetch'
      exact ⟨rfl, rfl⟩
    | row hfetch' _ => cases hfetch.symm.trans hfetch'
  | row hfetch _ ih =>
    cases hreads' with
    | exhausted hfetch' => cases hfetch.symm.trans hfetch'
    | failed hfetch' => cases hfetch.symm.trans hfetch'
    | row hfetch' hrest =>
      cases hfetch.symm.trans hfetch'
      obtain ⟨rfl, rfl⟩ := ih hrest
      exact ⟨rfl, rfl⟩

/-- What a stream hands out is determined, rows and end. -/
theorem Streamed.unique {st : Statement} {t : Token σ} {h : Host σ} {rows rows' : List Row}
    {ended ended' : Except Error Unit} (hs : b.Streamed st t h rows ended)
    (hs' : b.Streamed st t h rows' ended') : rows = rows' ∧ ended = ended' := by
  cases hs with
  | refused hopen =>
    cases hs' with
    | refused hopen' =>
      cases hopen.symm.trans hopen'
      exact ⟨rfl, rfl⟩
    | opened hopen' _ => cases hopen.symm.trans hopen'
  | opened hopen hreads =>
    cases hs' with
    | refused hopen' => cases hopen.symm.trans hopen'
    | opened hopen' hreads' =>
      cases hopen.symm.trans hopen'
      exact hreads.unique hreads'

end Backend

namespace Embedded

variable (e : Engine σ τ) (st : Statement) (t : Token σ) (h : Host σ)

/-! ## Tokens that are never cancelled -/

/-- One row on: a statement in progress and the device, before and after. -/
def Forth (e : Engine σ τ) (p q : τ × σ) : Prop :=
  ∃ cells, e.step Token.never p.1 p.2 = (.row cells q.1, q.2)

/-- **A token goes unnoticed** from a statement in progress on: wherever its rows lead, the token is
not cancelled, and the engine, which finds nothing when it polls it, steps as without a token. -/
def Unnoticed (e : Engine σ τ) (t : Token σ) (x : τ) (s : σ) : Prop :=
  ∀ y s', Relation.ReflTransGen (Forth e) (x, s) (y, s') →
    t s' = false ∧ e.step t y s' = e.step Token.never y s'

/-- One row on, it goes unnoticed still. -/
theorem Unnoticed.next {e : Engine σ τ} {t : Token σ} {x y : τ} {s s' : σ} {cells : List Cell}
    (ht : Unnoticed e t x s) (hrow : e.step t x s = (.row cells y, s')) : Unnoticed e t y s' := by
  have hforth : Forth e (x, s) (y, s') := ⟨cells, (ht x s .refl).2.symm.trans hrow⟩
  exact fun z s'' hz => ht z s'' (.head hforth hz)

/-- **A token is never cancelled** while a statement is prepared and its rows are stepped
through. -/
structure Uncancelled : Prop where
  /-- not before the statement is prepared -/
  before : t h.device = false
  /-- nor at the steps -/
  atSteps {x : τ} {h₁ : Host σ} : (prepare e st).outcome h = (.ok x, h₁) →
    Unnoticed e t x h₁.device

/-- A token that no state cancels is one. -/
theorem uncancelled_of_forall {t : Token σ} (ht : ∀ s, t s = false) : Uncancelled e st t h := by
  obtain rfl : t = Token.never := funext ht
  exact { before := rfl, atSteps := fun _ _ _ _ => ⟨rfl, rfl⟩ }

/-! ## What runs and streams come to -/

/-- The rows that a run steps through, whether it returns them or fails after them. -/
def stepped : List Row :=
  match (prepare e st).outcome h with
  | (.ok x, h₁) => (drain e t (e.columns x) x h₁.device).1.1
  | (.error _, _) => []

/-- How a statement ends that an engine has stepped through. -/
def ending : Option Refusal → Except Error Unit
  | none => .ok ()
  | some r => .error (refused r)

/-! ### Failures of the database -/

/-- An action that can fail in no other way than by a failure of the database. -/
def OnlyFails {α : Type} (a : Action (Host σ) Error α) : Prop :=
  ∀ h err, (a.outcome h).1 = .error err → ∃ f, err = .failure f

namespace OnlyFails

variable {α β : Type}

theorem pure (x : α) : OnlyFails (Pure.pure x : Action (Host σ) Error α) :=
  fun _ _ herr => nomatch herr

theorem throw (f : Failure) :
    OnlyFails (MonadExcept.throw (Error.failure f) : Action (Host σ) Error α) :=
  fun _ _ herr => ⟨f, (Except.error.inj herr).symm⟩

theorem onDevice (f : σ → α × σ) : OnlyFails (Embedded.onDevice f) :=
  fun _ _ herr => nomatch herr

/-- One action after another fails as the one of them that fails, so in no other way. -/
theorem bind {a : Action (Host σ) Error α} {f : α → Action (Host σ) Error β} (ha : OnlyFails a)
    (hf : ∀ x, OnlyFails (f x)) : OnlyFails (a >>= f) := by
  intro h err herr
  rw [Action.outcome_bind] at herr
  rcases hout : a.outcome h with ⟨err' | x, h'⟩
  · rw [hout] at herr
    obtain rfl := Except.error.inj herr
    exact ha h err' (by rw [hout])
  · rw [hout] at herr
    exact hf x h' err herr

end OnlyFails

/-- Binding fails with what the engine says of the value it refuses. -/
theorem onlyFails_bindFrom (x : τ) (i : Nat) (vs : List Value) :
    OnlyFails (bindFrom e x i vs) := by
  induction vs generalizing i with
  | nil => exact .pure ()
  | cons v vs ih =>
    refine (OnlyFails.onDevice _).bind fun r => ?_
    cases r with
    | none => exact ih (i + 1)
    | some r => exact .throw _

/-- Preparing fails with what the engine says of the statement. -/
theorem onlyFails_prepare : OnlyFails (prepare e st) := by
  refine (OnlyFails.onDevice _).bind fun r => ?_
  rcases r with r | _ | x
  · exact .throw _
  · exact .throw _
  · dsimp only
    split
    · exact (OnlyFails.throw _).bind fun _ =>
        (onlyFails_bindFrom e x _ _).bind fun _ => .pure x
    · exact (onlyFails_bindFrom e x _ _).bind fun _ => .pure x

/-- A run that was cancelled before it began is a failure, too. -/
theorem onlyFails_refuseCancelled : OnlyFails (refuseCancelled t) := by
  intro h err herr
  rw [outcome_refuseCancelled] at herr
  split at herr
  · exact ⟨_, (Except.error.inj herr).symm⟩
  · cases herr

/-- A run fails in no other way. -/
theorem onlyFails_runStatement : OnlyFails (runStatement e st t) := by
  refine (onlyFails_refuseCancelled t).bind fun _ => ?_
  refine (onlyFails_prepare e st).bind fun x => ?_
  refine (OnlyFails.onDevice _).bind fun r => ?_
  rcases r with ⟨rows, _ | r⟩
  · exact OnlyFails.bind (fun _ _ herr => nomatch herr) fun _ => .pure _
  · exact .throw _

/-! ### Side by side -/

variable {e st t h}

/-- A run fails where its statement cannot be prepared. -/
theorem runStatement_refused (ht : t h.device = false) {err : Error} {h₁ : Host σ}
    (hprepare : (prepare e st).outcome h = (.error err, h₁)) :
    ((runStatement e st t).outcome h).1 = .error err := by
  rw [runStatement, Action.outcome_bind, outcome_refuseCancelled, if_neg (by simp [ht])]
  simp only [Action.outcome_bind, hprepare]

/-- A run whose statement is prepared fails as stepping does, or it returns the rows. -/
theorem runStatement_prepared (ht : t h.device = false) {x : τ} {h₁ : Host σ}
    (hprepare : (prepare e st).outcome h = (.ok x, h₁)) {rows : List Row}
    {failure : Option Refusal}
    (hdrain : (drain e t (e.columns x) x h₁.device).1 = (rows, failure)) :
    (fun _ => ()) <$> ((runStatement e st t).outcome h).1 = ending failure ∧
    ∀ r, ((runStatement e st t).outcome h).1 = .ok r → r.rows = rows := by
  rw [runStatement, Action.outcome_bind, outcome_refuseCancelled, if_neg (by simp [ht])]
  simp only [Action.outcome_bind, hprepare, onDevice, Action.outcome_change, hdrain]
  cases failure with
  | some r => exact ⟨rfl, fun _ hr => nomatch hr⟩
  | none =>
    refine ⟨rfl, fun r hr => ?_⟩
    simp only [Action.outcome_bind, Action.outcome_get, Action.outcome_pure] at hr
    cases hr
    split <;> rfl

/-- A stream is opened where its statement is prepared, before any row is stepped to. -/
theorem outcome_openStream :
    (openStream e st t).outcome h =
      match (prepare e st).outcome h with
      | (.ok x, h₁) => (.ok { columns := e.columns x, statement := x, token := t }, h₁)
      | (.error err, h₁) => (.error err, h₁) := by
  rw [openStream, Action.outcome_bind]
  rcases (prepare e st).outcome h with ⟨_ | x, h₁⟩ <;> rfl

/-- The next row of a stream that is not at its end: one step, with the token unnoticed. -/
theorem outcome_fetch (columns : List Bytes) {x : τ} (ht : Unnoticed e t x h.device) :
    (fetch e).outcome ({ columns, statement := x, token := t }, h) =
      match e.step t x h.device with
      | (.row cells y, s) =>
        (.ok (some (rowOf columns cells)), { columns, statement := y, token := t },
          { h with device := s })
      | (.done, s) =>
        (.ok none, { columns, statement := x, token := t, done := true }, { h with device := s })
      | (.failed r, s) =>
        (.error (refused r), { columns, statement := x, token := t, done := true },
          { h with device := s }) := by
  obtain ⟨hlook, hstep⟩ := ht x h.device .refl
  rw [fetch, hstep]
  rcases hnever : e.step Token.never x h.device with ⟨_ | _ | _, s⟩
  all_goals
    simp only [Action.outcome_bind, Action.outcome_get, hlook, Bool.false_eq_true, if_false,
      hnever]
    rfl

/-- **Taking the rows of a stream and stepping through them come to the same.** -/
theorem reads_drain (columns : List Bytes) (x : τ) (h : Host σ) (ht : Unnoticed e t x h.device) :
    (backend e).Reads ({ columns, statement := x, token := t }, h)
      (drain e t columns x h.device).1.1 (ending (drain e t columns x h.device).1.2) := by
  obtain ⟨s, hs⟩ : ∃ s, s = h.device := ⟨_, rfl⟩
  rw [← hs] at ht ⊢
  -- along the steps; the token goes unnoticed from each of them on
  fun_induction drain e t columns x s generalizing h with
  | case1 x s cells y s' hrow rows failure s'' hrest ih =>
    subst hs
    have hfetch := outcome_fetch columns ht
    rw [hrow] at hfetch
    have hreads := ih { h with device := s' } (ht.next hrow) rfl
    rw [hrest] at hreads
    exact .row hfetch hreads
  | case2 x s s' hdone =>
    subst hs
    have hfetch := outcome_fetch columns ht
    rw [hdone] at hfetch
    exact .exhausted hfetch
  | case3 x s r s' hfailed =>
    subst hs
    have hfetch := outcome_fetch columns ht
    rw [hfailed] at hfetch
    exact .failed hfetch

/-- A stream gives the rows that a run steps through, and ends as the run does. -/
theorem streamed_stepped (ht : Uncancelled e st t h) :
    (backend e).Streamed st t h (stepped e st t h)
      ((fun _ => ()) <$> ((runStatement e st t).outcome h).1) := by
  rw [stepped]
  rcases hprepare : (prepare e st).outcome h with ⟨err | x, h₁⟩
  · rw [runStatement_refused ht.before hprepare]
    have hopen : (openStream e st t).outcome h = (.error err, h₁) :=
      outcome_openStream.trans (by rw [hprepare])
    exact .refused hopen
  · rw [(runStatement_prepared ht.before hprepare rfl).1]
    exact .opened (outcome_openStream.trans (by rw [hprepare]))
      (reads_drain (e.columns x) x h₁ (ht.atSteps hprepare))

/-- A run that returns gives the rows that it stepped through. -/
theorem rows_of_runStatement (ht : t h.device = false) {r : ResultSet}
    (hr : ((runStatement e st t).outcome h).1 = .ok r) : r.rows = stepped e st t h := by
  rw [stepped]
  rcases hprepare : (prepare e st).outcome h with ⟨err | x, h₁⟩
  · cases (runStatement_refused ht hprepare).symm.trans hr
  · exact (runStatement_prepared ht hprepare rfl).2 r hr

/-- **Streams agree with runs.** Under a token that is never cancelled, the rows taken from a stream
until there is none or taking one fails are those that a run of the statement steps through. There
comes to be none just where the run returns, and it returns these rows; where the run fails, which
it does with a failure of the database, opening the stream or taking a row fails in the same way. -/
theorem streamed_iff_run (ht : Uncancelled e st t h) :
    (∀ rows ended, (backend e).Streamed st t h rows ended ↔
      rows = stepped e st t h ∧
        ended = (fun _ => ()) <$> (((backend e).run st t).outcome h).1) ∧
    (∀ r, (((backend e).run st t).outcome h).1 = .ok r → r.rows = stepped e st t h) ∧
    ∀ err, (((backend e).run st t).outcome h).1 = .error err → ∃ f, err = .failure f := by
  have hstreamed := streamed_stepped ht
  refine ⟨fun rows ended => ⟨fun hs => hs.unique hstreamed, ?_⟩,
    fun r hr => rows_of_runStatement ht.before hr, onlyFails_runStatement e st t h⟩
  rintro ⟨rfl, rfl⟩
  exact hstreamed

end Embedded

/-! ## A scripted engine -/

namespace Scripted

open Embedded

/-- A desk for a connection and the flag of a token. -/
def flagged : Desk (Connection × Bool) where
  connection s := s.1
  put c s := (c, s.2)
  trace _ s := s
  cancel s := (s.1, true)

/-- The token of the flag. -/
def flag : Token (Connection × Bool) := fun s => s.2

/-- A step of a statement that cancels nothing: its next row, or its end. -/
theorem flagged_step {t : Token (Connection × Bool)} {x : Play} {c : Connection}
    (hx : x.cancelsAt = none) (ht : t (c, false) = false) :
    flagged.engine.step t x (c, false) =
      match x.rows with
      | r :: rs => (.row r { x with rows := rs, given := x.given + 1 }, (c, false))
      | [] =>
        (x.failsAtEnd.elim .done .failed,
          ({ c with changes := x.changes, lastInsertId := x.lastInsertId }, false)) := by
  have hreach : flagged.reach x (c, false) = (c, false) := by
    rw [Desk.reach, hx]
    rfl
  change flagged.step t x (c, false) = _
  rw [Desk.step, hreach]
  simp only [ht, Bool.false_eq_true, if_false]
  cases x.rows with
  | cons r rs => rfl
  | nil => cases x.failsAtEnd <;> rfl

/-- No row of such a statement cancels the token. -/
theorem flagged_forth {x : Play} {c : Connection} (hx : x.cancelsAt = none)
    {q : Play × Connection × Bool}
    (hq : Relation.ReflTransGen (Forth flagged.engine) (x, c, false) q) :
    q.1.cancelsAt = none ∧ q.2.2 = false := by
  induction hq with
  | refl => exact ⟨hx, rfl⟩
  | @tail p q _ hforth ih =>
    obtain ⟨y, c', looked⟩ := p
    obtain ⟨hy, hlooked⟩ := ih
    obtain rfl : looked = false := hlooked
    obtain ⟨cells, hstep⟩ := hforth
    have hstep := (flagged_step (t := Token.never) hy rfl).symm.trans hstep
    cases hrows : y.rows with
    | nil =>
      rw [hrows] at hstep
      cases hfails : y.failsAtEnd <;> rw [hfails] at hstep <;> cases hstep
    | cons r rs =>
      rw [hrows] at hstep
      obtain ⟨q₁, q₂⟩ := q
      cases hstep
      exact ⟨hy, rfl⟩

/-- Such a statement gives its rows, and ends as it is to end. -/
theorem drain_flagged {x : Play} (hx : x.cancelsAt = none) (c : Connection)
    (columns : List Bytes) :
    (drain flagged.engine flag columns x (c, false)).1 =
      (x.rows.map (rowOf columns), x.failsAtEnd) := by
  obtain ⟨rows, hrows⟩ : ∃ rows, rows = x.rows := ⟨_, rfl⟩
  induction rows generalizing x with
  | nil =>
    rw [drain_eq, flagged_step hx rfl, ← hrows]
    cases x.failsAtEnd <;> rfl
  | cons r rs ih =>
    rw [drain_eq, flagged_step hx rfl, ← hrows]
    have hrest := ih (x := { x with rows := rs, given := x.given + 1 }) hx rfl
    simp only [hrest, List.map_cons]

/-- A statement whose third row cannot be read. -/
def torn : Play where
  columns := [ascii "id"]
  rows := [[.integer 1], [.integer 2]]
  failsAtEnd := some ⟨11, ascii "database disk image is malformed"⟩

/-- A host whose next statement is torn. -/
def tornDesk : Host (Connection × Bool) where
  device := ({ statements := [.ok (some torn)] }, false)

/-- A statement. -/
def listing : Statement := ⟨ascii "SELECT id FROM logs", []⟩

/-- The stream gives two rows and fails as the run does. -/
theorem streamed_iff_run_torn :
    Uncancelled flagged.engine listing flag tornDesk ∧
    (Embedded.backend flagged.engine).Streamed listing flag tornDesk
      [.ofList [(ascii "id", .integer 1)], .ofList [(ascii "id", .integer 2)]]
      (.error (.failure ⟨.broken, ascii "database disk image is malformed", []⟩)) := by
  have hprepare : (prepare flagged.engine listing).outcome tornDesk =
      (.ok (Desk.cast listing.sql torn), { device := ({}, false) }) := by
    rfl
  have hdrain := drain_flagged (x := Desk.cast listing.sql torn) rfl {} torn.columns
  have ht : Uncancelled flagged.engine listing flag tornDesk := by
    refine ⟨rfl, ?_⟩
    intro x h₁ hprepared y s hreached
    cases hprepare.symm.trans hprepared
    obtain ⟨hy, hlooked⟩ := flagged_forth rfl hreached
    obtain ⟨c, looked⟩ := s
    obtain rfl : looked = false := hlooked
    exact ⟨rfl, (flagged_step hy rfl).trans (flagged_step hy rfl).symm⟩
  refine ⟨ht, ((streamed_iff_run ht).1 _ _).2 ⟨?_, ?_⟩⟩
  · rw [stepped, hprepare]
    exact (congrArg (·.1) hdrain).symm
  · exact (runStatement_prepared ht.before hprepare hdrain).1.symm

end Scripted

end SqlPlan
