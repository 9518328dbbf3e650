/-!
# Actions

An action changes a state and gives a result or an error; the state it reached is kept in both
cases. `Action.on` runs an action on a part of a larger state, `Action.change` is a change that
cannot fail.
-/

namespace SqlPlan

/-- A computation that may fail and that keeps its state either way. -/
abbrev Action (σ ε α : Type) := ExceptT ε (StateM σ) α

namespace Action

variable {σ τ ε α : Type}

/-- What an action comes to from a state: its outcome, and the state it reached. -/
def outcome (a : Action σ ε α) (s : σ) : Except ε α × σ := a.run.run s

/-- The action of a function from states to outcomes and states. -/
def ofOutcome (f : σ → Except ε α × σ) : Action σ ε α := ExceptT.mk f

/-- Runs an action on the part of the state that `part` takes out and `put` puts back. -/
def on (part : σ → τ) (put : τ → σ → σ) (a : Action τ ε α) : Action σ ε α :=
  ofOutcome fun s =>
    let (r, t) := a.outcome (part s)
    (r, put t s)

/-- A change of the state, with what it gives. -/
def change (f : σ → α × σ) : Action σ ε α :=
  ofOutcome fun s =>
    let (a, s) := f s
    (.ok a, s)

/-- A result that may be an error, as an action that leaves the state alone. -/
def ofExcept (r : Except ε α) : Action σ ε α := ofOutcome fun s => (r, s)

/-- Runs `a`; if it fails, makes a change and fails with the same error. -/
def onError (a : Action σ ε α) (undo : ε → σ → σ) : Action σ ε α :=
  ofOutcome fun s =>
    match a.outcome s with
    | (.ok x, s) => (.ok x, s)
    | (.error e, s) => (.error e, undo e s)

@[simp] theorem outcome_ofOutcome (f : σ → Except ε α × σ) (s : σ) :
    outcome (ofOutcome f) s = f s := rfl

@[simp] theorem outcome_pure (x : α) (s : σ) :
    outcome (pure x : Action σ ε α) s = (.ok x, s) := rfl

@[simp] theorem outcome_throw (e : ε) (s : σ) :
    outcome (throw e : Action σ ε α) s = (.error e, s) := rfl

@[simp] theorem outcome_get (s : σ) : outcome (get : Action σ ε σ) s = (.ok s, s) := rfl

@[simp] theorem outcome_set (s s' : σ) :
    outcome (set s' : Action σ ε PUnit) s = (.ok ⟨⟩, s') := rfl

@[simp] theorem outcome_change (f : σ → α × σ) (s : σ) :
    outcome (change f : Action σ ε α) s = (.ok (f s).1, (f s).2) := rfl

@[simp] theorem outcome_ofExcept (r : Except ε α) (s : σ) :
    outcome (ofExcept r) s = (r, s) := rfl

/-- An action on a part of the state leaves the other part. -/
theorem outcome_on (part : σ → τ) (put : τ → σ → σ) (a : Action τ ε α) (s : σ) :
    outcome (a.on part put) s = ((a.outcome (part s)).1, put (a.outcome (part s)).2 s) := rfl

/-- What undoes an action sees the state in which it failed. -/
theorem outcome_onError (a : Action σ ε α) (undo : ε → σ → σ) (s : σ) :
    outcome (a.onError undo) s =
      match a.outcome s with
      | (.ok x, s) => (.ok x, s)
      | (.error e, s) => (.error e, undo e s) := rfl

/-- An action goes on with its result, and stops at its error. -/
theorem outcome_bind {β : Type} (a : Action σ ε α) (f : α → Action σ ε β) (s : σ) :
    outcome (a >>= f) s =
      match outcome a s with
      | (.ok x, s) => outcome (f x) s
      | (.error e, s) => (.error e, s) := by
  rcases h : outcome a s with ⟨r, s'⟩
  have h' : a s = (r, s') := h
  simp only [outcome, bind, ExceptT.bind, ExceptT.mk, ExceptT.run, StateT.run, StateT.bind, h']
  cases r with
  | error e => rfl
  | ok x => rfl

/-- What follows an action without changing the state does not matter to the state. -/
theorem reached_bind {β : Type} {a : Action σ ε α} {f : α → Action σ ε β}
    (hf : ∀ x s, ((f x).outcome s).2 = s) (s : σ) :
    ((a >>= f).outcome s).2 = (a.outcome s).2 := by
  rw [outcome_bind]
  rcases a.outcome s with ⟨_ | x, s'⟩
  · rfl
  · exact hf x s'

/-- What follows an action, where it gives the same from every state, depends on the result only. -/
theorem result_bind {β : Type} {a : Action σ ε α} {f : α → Action σ ε β} {g : α → Except ε β}
    (hf : ∀ x s, ((f x).outcome s).1 = g x) (s : σ) :
    ((a >>= f).outcome s).1 = (a.outcome s).1 >>= g := by
  rw [outcome_bind]
  rcases a.outcome s with ⟨_ | x, s'⟩
  · rfl
  · exact hf x s'

end Action

end SqlPlan
