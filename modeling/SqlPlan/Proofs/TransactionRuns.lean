import SqlPlan.Proofs.Execution

/-!
# Runs of a transaction

A run of a transaction is any list of calls on it: statements are added, one by one or several at a
time, and there are commits and rollbacks. `Transaction.Course` lists the three ways in which a run
can go, with the outcome of every call, what is left in the end, and what the backend was sent;
`Transaction.run_course` says that there is no other, whatever the backend answers and whichever
tokens are cancelled.

To see what is sent, a backend is made to write down its calls (`Backend.recording`). A commit does
on it what it does on the plain backend, and writes down its batch.
-/

namespace SqlPlan

variable {σ κ : Type}

/-! ## Calls on a transaction -/

namespace Transaction

/-- A call on a transaction. -/
inductive Call (σ : Type) where
  /-- to add a statement -/
  | add (st : Statement)
  /-- to add some statements -/
  | addAll (sts : List Statement)
  /-- to send the statements as one batch -/
  | commit (t : Token σ)
  /-- to drop the statements -/
  | rollback

/-- A change of the transaction alone, which leaves it as it was when it fails. -/
def edit (f : Transaction σ κ → Except Error (Transaction σ κ)) :
    Action (Transaction σ κ × ExecutorState σ) Error (Option (List ResultSet)) :=
  Action.ofOutcome fun (x, s) =>
    match f x with
    | .ok x' => (.ok none, x', s)
    | .error e => (.error e, x, s)

namespace Call

/-- The statements that a call adds. -/
def statements : Call σ → List Statement
  | .add st => [st]
  | .addAll sts => sts
  | .commit _ | .rollback => []

/-- Is the call to end the transaction? -/
def isEnd : Call σ → Bool
  | .add _ | .addAll _ => false
  | .commit _ | .rollback => true

/-- Makes the call. Results are those of a batch. -/
def perform : Call σ →
    Action (Transaction σ κ × ExecutorState σ) Error (Option (List ResultSet))
  | .add st => edit (·.add st)
  | .addAll sts => edit (·.addAll sts)
  | .commit t => do return some (← Transaction.commit t)
  | .rollback => edit Transaction.rollback

end Call

/-- Makes calls one after the other, whatever they come to: the outcomes of all of them, and what is
left. -/
def run : List (Call σ) → Transaction σ κ × ExecutorState σ →
    List (Except Error (Option (List ResultSet))) × Transaction σ κ × ExecutorState σ
  | [], y => ([], y)
  | c :: cs, y =>
    let (r, z) := c.perform.outcome y
    let (rs, w) := run cs z
    (r :: rs, w)

variable {x : Transaction σ κ} {s : ExecutorState σ} {c : Call σ} {cs ds : List (Call σ)}

/-! ### Steps -/

/-- A transaction that is over refuses every call, and nothing changes. -/
theorem outcome_perform_of_over (hx : x.active = false) :
    c.perform.outcome (x, s) = (.error .finished, x, s) := by
  cases c with
  | add st => simp [Call.perform, edit, Transaction.add, addAll, hx]
  | addAll sts => simp [Call.perform, edit, addAll, hx]
  | commit t => simp [Call.perform, Transaction.commit, Action.outcome_bind, hx]
  | rollback => simp [Call.perform, edit, Transaction.rollback, hx]

/-- What is added comes after what was added before. -/
theorem outcome_perform_of_add (hx : x.active = true) (hc : c.isEnd = false) :
    c.perform.outcome (x, s) =
      (.ok none, { x with pending := x.pending ++ c.statements }, s) := by
  cases c with
  | add st => simp [Call.perform, Call.statements, edit, Transaction.add, addAll, hx]
  | addAll sts => simp [Call.perform, Call.statements, edit, addAll, hx]
  | commit | rollback => cases hc

/-- A commit is a batch of what was added, and ends the transaction. -/
theorem outcome_perform_commit (hx : x.active = true) (t : Token σ) :
    (Call.commit t).perform.outcome (x, s) =
      (((x.backend.batch x.pending t).outcome s).1.map some, x.ended,
        ((x.backend.batch x.pending t).outcome s).2) := by
  rw [Call.perform, Action.outcome_bind, outcome_commit hx]
  cases ((x.backend.batch x.pending t).outcome s).1 <;> rfl

/-- A rollback ends the transaction. -/
theorem outcome_perform_rollback (hx : x.active = true) :
    (Call.rollback (σ := σ)).perform.outcome (x, s) = (.ok none, x.ended, s) := by
  simp [Call.perform, edit, Transaction.rollback, hx]

/-! ### Runs -/

theorem run_cons (y : Transaction σ κ × ExecutorState σ) :
    run (c :: cs) y =
      ((c.perform.outcome y).1 :: (run cs (c.perform.outcome y).2).1,
        (run cs (c.perform.outcome y).2).2) := rfl

/-- Calls after others begin with what these left. -/
theorem run_append (y : Transaction σ κ × ExecutorState σ) :
    run (cs ++ ds) y = ((run cs y).1 ++ (run ds (run cs y).2).1, (run ds (run cs y).2).2) := by
  induction cs generalizing y with
  | nil => rfl
  | cons c cs ih => rw [List.cons_append, run_cons, ih, run_cons, List.cons_append]

/-- **A transaction that is over stays as it is**: every call is refused. -/
theorem run_of_over (hx : x.active = false) :
    run cs (x, s) = (cs.map fun _ => .error .finished, x, s) := by
  induction cs with
  | nil => rfl
  | cons c cs ih => rw [run_cons, outcome_perform_of_over hx, ih, List.map_cons]

/-- The transaction with all that some calls add to it. -/
def gathering (x : Transaction σ κ) (cs : List (Call σ)) : Transaction σ κ :=
  { x with pending := x.pending ++ cs.flatMap Call.statements }

/-- **Statements gather in the order of the calls**, and the executor is left alone. -/
theorem run_of_adds (hx : x.active = true) (hcs : ∀ c ∈ cs, c.isEnd = false) :
    run cs (x, s) = (cs.map fun _ => .ok none, x.gathering cs, s) := by
  induction cs generalizing x with
  | nil => simp [run, gathering]
  | cons c cs ih =>
    obtain ⟨hc, hcs⟩ := List.forall_mem_cons.1 hcs
    have hrest := ih (x := { x with pending := x.pending ++ c.statements }) hx hcs
    rw [run_cons, outcome_perform_of_add hx hc]
    simp [hrest, gathering]

/-- What follows the first call that ends the transaction is refused. -/
theorem run_of_end (hx : x.active = true) (hcs : ∀ c ∈ cs, c.isEnd = false)
    {r : Except Error (Option (List ResultSet))} {s' : ExecutorState σ}
    (hend : c.perform.outcome (x.gathering cs, s) = (r, x.ended, s')) :
    run (cs ++ c :: ds) (x, s) =
      (cs.map (fun _ => .ok none) ++ r :: ds.map fun _ => .error .finished, x.ended, s') := by
  rw [run_append, run_of_adds hx hcs, run_cons]
  dsimp only
  rw [hend, run_of_over rfl]

/-- The first commit is the batch of all that was added. -/
theorem run_of_commit (hx : x.active = true) (hcs : ∀ c ∈ cs, c.isEnd = false) (t : Token σ) :
    run (cs ++ .commit t :: ds) (x, s) =
      (cs.map (fun _ => .ok none) ++
          ((x.backend.batch (x.gathering cs).pending t).outcome s).1.map some ::
            ds.map fun _ => .error .finished,
        x.ended, ((x.backend.batch (x.gathering cs).pending t).outcome s).2) :=
  run_of_end hx hcs (outcome_perform_commit (x := x.gathering cs) hx t)

/-- A rollback before any commit drops all that was added. -/
theorem run_of_rollback (hx : x.active = true) (hcs : ∀ c ∈ cs, c.isEnd = false) :
    run (cs ++ .rollback :: ds) (x, s) =
      (cs.map (fun _ => .ok none) ++ .ok none :: ds.map fun _ => .error .finished,
        x.ended, s) :=
  run_of_end hx hcs (outcome_perform_rollback (x := x.gathering cs) hx)

/-- Calls either all add something, or there is a first one that is to end the transaction. -/
theorem adds_or_end (cs : List (Call σ)) :
    (∀ c ∈ cs, c.isEnd = false) ∨
      ∃ adds c later, cs = adds ++ c :: later ∧ (∀ a ∈ adds, a.isEnd = false) ∧
        c.isEnd = true := by
  cases hfirst : cs.find? Call.isEnd with
  | none => exact .inl fun c hc => by simpa using List.find?_eq_none.1 hfirst c hc
  | some c =>
    obtain ⟨hc, adds, later, rfl, hadds⟩ := List.find?_eq_some_iff_append.1 hfirst
    exact .inr ⟨adds, c, later, rfl, fun a ha => by simpa using hadds a ha, hc⟩

end Transaction

/-! ## A backend that writes down its calls -/

/-- The host with a list of calls beside its device. -/
def Host.noting (h : Host σ) (sent : List Scripted.Call) : Host (σ × List Scripted.Call) :=
  { device := (h.device, sent), console := h.console }

/-- An executor whose host has a list of calls beside its device. -/
def ExecutorState.noting (s : ExecutorState σ) (sent : List Scripted.Call) :
    ExecutorState (σ × List Scripted.Call) :=
  { host := s.host.noting sent, loggers := s.loggers }

/-- The token on a device that has a list of calls beside it. -/
def Token.noting (t : Token σ) : Token (σ × List Scripted.Call) := fun d => t d.1

namespace Backend

/-- A call that is written down before it is made. -/
def noting {α : Type} (c : Scripted.Call)
    (a : List Scripted.Call → Action (Host σ) Error α) :
    Action (Host (σ × List Scripted.Call)) Error α :=
  Action.ofOutcome fun h =>
    let sent := h.device.2 ++ [c]
    let (r, h') := (a sent).outcome { device := h.device.1, console := h.console }
    (r, h'.noting sent)

/-- The backend, with a list of the calls it got, the first one first. -/
def recording (b : Backend σ κ) : Backend (σ × List Scripted.Call) κ where
  run st t := noting (.run st) fun sent => b.run st fun d => t (d, sent)
  openStream st t := noting (.openStream st) fun sent => b.openStream st fun d => t (d, sent)
  columns := b.columns
  fetch := Action.ofOutcome fun (k, h) =>
    let (r, k', h') := b.fetch.outcome (k, { device := h.device.1, console := h.console })
    (r, k', h'.noting h.device.2)
  runBatch sts t := noting (.batch sts) fun sent => b.runBatch sts fun d => t (d, sent)

/-- What a backend is sent for a batch: nothing where there are no statements or the token is
cancelled before, and else the statements as they are. -/
def sentFor (sts : List Statement) (t : Token σ) (s : ExecutorState σ) : List Scripted.Call :=
  if sts = [] ∨ t s.host.device = true then [] else [.batch sts]

variable (b : Backend σ κ) (t : Token σ) (s : ExecutorState σ) (sent : List Scripted.Call)

theorem noting_notify (e : Event) : (s.noting sent).notify e = (s.notify e).noting sent := rfl

theorem noting_reportFailure (st : Statement) (e : Error) :
    reportFailure st e (s.noting sent) = (reportFailure st e s).noting sent := by
  cases e <;> rfl

/-- What is written down does not concern the loggers. -/
theorem noting_executed (ps : List (Statement × ResultSet)) :
    ps.foldl (fun s p => s.notify (.executed p.1 p.2)) (s.noting sent) =
      (ps.foldl (fun s p => s.notify (.executed p.1 p.2)) s).noting sent := by
  induction ps generalizing s with
  | nil => rfl
  | cons p ps ih => rw [List.foldl_cons, List.foldl_cons, noting_notify, ih]

/-- **A batch on a recording backend** comes to what it comes to on the plain one, and writes down
what is sent. -/
theorem outcome_batch_recording (sts : List Statement) :
    (b.recording.batch sts t.noting).outcome (s.noting sent) =
      (((b.batch sts t).outcome s).1,
        ((b.batch sts t).outcome s).2.noting (sent ++ sentFor sts t s)) := by
  by_cases hsts : sts = []
  · subst hsts
    simp [batch, sentFor]
  -- a batch is sent once, and nothing is when the token has fired before
  · rw [outcome_batch _ _ _ hsts, outcome_batch _ _ _ hsts, sentFor]
    have htoken : t.noting (s.noting sent).host.device = t s.host.device := rfl
    rw [htoken]
    cases ht : t s.host.device with
    | true => simp [noting_notify]
    | false =>
      have hrun : (b.recording.runBatch sts t.noting).outcome (s.noting sent).host =
          (((b.runBatch sts t).outcome s.host).1,
            ((b.runBatch sts t).outcome s.host).2.noting (sent ++ [.batch sts])) := rfl
      rw [hrun]
      rcases (b.runBatch sts t).outcome s.host with ⟨e | rs, h⟩
      · simp only [hsts, Bool.false_eq_true, or_self, if_false]
        rw [← noting_reportFailure]
        rfl
      · simp only [hsts, Bool.false_eq_true, or_self, if_false]
        rw [← noting_executed]
        rfl

end Backend

namespace Transaction

/-- The transaction on a recording backend. -/
def recording (x : Transaction σ κ) : Transaction (σ × List Scripted.Call) κ :=
  { backend := x.backend.recording, active := x.active, pending := x.pending }

/-- The call on a recording backend. -/
def Call.recording : Call σ → Call (σ × List Scripted.Call)
  | .add st => .add st
  | .addAll sts => .addAll sts
  | .commit t => .commit t.noting
  | .rollback => .rollback

/-- The calls add the same there. -/
theorem gathering_recording (x : Transaction σ κ) (cs : List (Call σ)) :
    x.recording.gathering (cs.map Call.recording) = (x.gathering cs).recording := by
  have hcall : ∀ c : Call σ, c.recording.statements = c.statements := fun c => by cases c <;> rfl
  simp only [gathering, recording, List.flatMap_map, hcall]

/-- They end no transaction there that they do not end here. -/
theorem isEnd_recording {cs : List (Call σ)} (hcs : ∀ c ∈ cs, c.isEnd = false) :
    ∀ c ∈ cs.map Call.recording, c.isEnd = false := by
  have hcall : ∀ c : Call σ, c.recording.isEnd = c.isEnd := fun c => by cases c <;> rfl
  simpa only [List.forall_mem_map, hcall] using hcs

/-! ## The ways in which a run can go -/

/-- **The ways in which a run of a transaction can go**, on a backend with an executor in state `s`:
the calls, what the backend is sent, and the outcomes of the calls with what is left. -/
inductive Course (b : Backend σ κ) (s : ExecutorState σ) : List (Call σ) → List Scripted.Call →
    List (Except Error (Option (List ResultSet))) × Transaction σ κ × ExecutorState σ → Prop where
  /-- statements gather in the order of the calls, and nothing is sent -/
  | gathers {adds : List (Call σ)} : (∀ c ∈ adds, c.isEnd = false) →
      Course b s adds []
        (adds.map fun _ => .ok none,
          { backend := b, active := true, pending := adds.flatMap Call.statements }, s)
  /-- the first commit sends what was gathered as one batch; whatever that comes to, the calls
  after it are refused -/
  | commits {adds later : List (Call σ)} {t : Token σ} : (∀ c ∈ adds, c.isEnd = false) →
      Course b s (adds ++ .commit t :: later)
        (Backend.sentFor (adds.flatMap Call.statements) t s)
        (adds.map (fun _ => .ok none) ++
            ((b.batch (adds.flatMap Call.statements) t).outcome s).1.map some ::
              later.map fun _ => .error .finished,
          { backend := b, active := false, pending := [] },
          ((b.batch (adds.flatMap Call.statements) t).outcome s).2)
  /-- a rollback before any commit drops what was gathered, and the calls after it are refused -/
  | rollsBack {adds later : List (Call σ)} : (∀ c ∈ adds, c.isEnd = false) →
      Course b s (adds ++ .rollback :: later) []
        (adds.map (fun _ => .ok none) ++ .ok none :: later.map fun _ => .error .finished,
          { backend := b, active := false, pending := [] }, s)

/-- **Every run of a transaction takes one of these courses**, and what its course says is sent is
what a recording backend has written down in the end, all else being the same. -/
theorem run_course (b : Backend σ κ) (s : ExecutorState σ) (cs : List (Call σ)) :
    ∃ sent rs x s', run cs ({ backend := b }, s) = (rs, x, s') ∧
      Course b s cs sent (rs, x, s') ∧
      run (cs.map Call.recording) (({ backend := b } : Transaction σ κ).recording, s.noting []) =
        (rs, x.recording, s'.noting sent) := by
  -- what comes before the first end only gathers, and what comes after it fails
  rcases adds_or_end cs with hadds | ⟨adds, c, later, rfl, hadds, hend⟩
  · refine ⟨_, _, _, _, run_of_adds rfl hadds, .gathers hadds, ?_⟩
    rw [run_of_adds rfl (isEnd_recording hadds), gathering_recording, List.map_map]
    rfl
  · cases c with
    | add | addAll => cases hend
    | commit t =>
      refine ⟨_, _, _, _, run_of_commit rfl hadds t, .commits hadds, ?_⟩
      have hbatch := b.outcome_batch_recording t s [] (adds.flatMap Call.statements)
      rw [List.map_append, List.map_cons, Call.recording,
        run_of_commit rfl (isEnd_recording hadds), gathering_recording, List.map_map, List.map_map]
      dsimp only [recording, gathering, List.nil_append] at hbatch ⊢
      rw [hbatch]
      rfl
    | rollback =>
      refine ⟨_, _, _, _, run_of_rollback rfl hadds, .rollsBack hadds, ?_⟩
      rw [List.map_append, List.map_cons, Call.recording,
        run_of_rollback rfl (isEnd_recording hadds), List.map_map, List.map_map]
      rfl

end Transaction

end SqlPlan
