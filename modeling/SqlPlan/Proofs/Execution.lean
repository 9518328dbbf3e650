import SqlPlan.Scripted.Backend
import SqlPlan.Transaction

/-!
# What executors make of what their backends give

The equations `outcome_execute`, `outcome_stream`, `outcome_batch` and `outcome_commit` say what a
call to an executor comes to, in terms of what its backend comes to: the result, and what the
loggers are told.

A result may say of itself that it is no success. `Reports` says that a call turns this into a
failure and tells the loggers of nothing else. `reports_unsuccessful_iff` is the main statement: the
execution of a statement always does so; a batch, and with it the commit of a transaction, does so
for no such result, which `batch_passes_unsuccessful` shows on a batch of one statement.
-/

namespace SqlPlan

variable {σ κ : Type}

/-! ## Calls and their outcomes -/

theorem outcome_refuseCancelled (t : Token σ) (h : Host σ) :
    (refuseCancelled t).outcome h =
      if t h.device then (.error (.failure .cancellation), h) else (.ok (), h) := by
  rw [refuseCancelled]
  simp only [Action.outcome_bind, Action.outcome_get]
  split <;> rfl

namespace Backend

variable (b : Backend σ κ) (t : Token σ) (s : ExecutorState σ)

/-- A call that a backend gets, unless the token is cancelled: what it does with the loggers, once
it has gone well. -/
theorem outcome_guarded {α β : Type} (st : Statement) (a : Action (Host σ) Error α)
    (f : α → Action (ExecutorState σ) Error β) :
    (Action.onError
      (ExecutorState.onHost (refuseCancelled t) >>= fun _ => ExecutorState.onHost a >>= f)
      (reportFailure st)).outcome s =
      if t s.host.device then
        (.error (.failure .cancellation), s.notify (.failed st .cancellation))
      else
        match a.outcome s.host with
        | (.error e, h) => (.error e, reportFailure st e { s with host := h })
        | (.ok x, h) => ((f x).onError (reportFailure st)).outcome { s with host := h } := by
  simp only [Action.outcome_onError, Action.outcome_bind, ExecutorState.onHost, Action.outcome_on,
    outcome_refuseCancelled]
  by_cases ht : t s.host.device
  · simp [ht, reportFailure]
  · simp only [ht, if_false, Bool.false_eq_true]
    rcases a.outcome s.host with ⟨_ | x, h⟩ <;> rfl

/-- What executing a statement comes to. -/
theorem outcome_execute (st : Statement) :
    (b.execute st t).outcome s =
      if t s.host.device then
        (.error (.failure .cancellation), s.notify (.failed st .cancellation))
      else
        match (b.run st t).outcome s.host with
        | (.error e, h) => (.error e, reportFailure st e { s with host := h })
        | (.ok r, h) =>
          if r.success then (.ok r, ExecutorState.notify (.executed st r) { s with host := h })
          else
            (.error (.failure (.unsuccessful r.errors)),
              ExecutorState.notify (.failed st (.unsuccessful r.errors)) { s with host := h }) := by
  rw [execute, outcome_guarded]
  split
  · rfl
  · rcases (b.run st t).outcome s.host with ⟨_ | r, h⟩
    · rfl
    · dsimp only
      cases r.success <;> rfl

/-- What opening a stream comes to. -/
theorem outcome_stream (st : Statement) :
    (b.stream st t).outcome s =
      if t s.host.device then
        (.error (.failure .cancellation), s.notify (.failed st .cancellation))
      else
        match (b.openStream st t).outcome s.host with
        | (.error e, h) => (.error e, reportFailure st e { s with host := h })
        | (.ok k, h) => (.ok k, { s with host := h }) := by
  rw [stream]
  simp only [Action.outcome_onError, Action.outcome_bind, ExecutorState.onHost, Action.outcome_on,
    outcome_refuseCancelled]
  by_cases ht : t s.host.device
  · simp [ht, reportFailure]
  · simp only [ht, if_false, Bool.false_eq_true]
    rcases (b.openStream st t).outcome s.host with ⟨_ | k, h⟩ <;> rfl

/-- What a batch of some statements comes to: its results are passed on as they are. -/
theorem outcome_batch {sts : List Statement} (hsts : sts ≠ []) :
    (b.batch sts t).outcome s =
      if t s.host.device then
        (.error (.failure .cancellation), s.notify (.failed (batchLabel sts) .cancellation))
      else
        match (b.runBatch sts t).outcome s.host with
        | (.error e, h) => (.error e, reportFailure (batchLabel sts) e { s with host := h })
        | (.ok rs, h) =>
          (.ok rs, (sts.zip rs).foldl (fun s p => s.notify (.executed p.1 p.2))
            { s with host := h }) := by
  have hempty : ¬sts.isEmpty = true := by simpa using hsts
  rw [batch, if_neg hempty, outcome_guarded]
  split
  · rfl
  · rcases (b.runBatch sts t).outcome s.host with ⟨_ | rs, h⟩ <;> rfl

end Backend

/-- A commit of a transaction that is active is its batch, and ends it. -/
theorem Transaction.outcome_commit {x : Transaction σ κ} (hx : x.active = true) (t : Token σ)
    (s : ExecutorState σ) :
    (commit t).outcome (x, s) =
      (((x.backend.batch x.pending t).outcome s).1, x.ended,
        ((x.backend.batch x.pending t).outcome s).2) := by
  rw [commit]
  simp only [Action.outcome_bind, Action.outcome_get, hx, Bool.not_true, Bool.false_eq_true,
    if_false, Action.outcome_set, Action.outcome_on]

/-! ## Results that are no success -/

/-- A call for a statement **reports a failure**: that is what it comes to, and the loggers, whose
state was `s` when the backend was done, are told of the failure and of nothing else. -/
def Reports {α : Type} (st : Statement) (s : ExecutorState σ)
    (r : Except Error α × ExecutorState σ) : Prop :=
  ∃ f, r = (.error (.failure f), s.notify (.failed st f))

/-- What a call that passes some results on comes to is no failure. -/
theorem not_reports_ok {α : Type} {st : Statement} {s s' : ExecutorState σ} {x : α} :
    ¬Reports st s (.ok x, s') := by
  rintro ⟨f, hf⟩
  cases hf

/-- Of some results, either one is no success or all of them are. -/
theorem imp_false_iff_all_success {rs : List ResultSet} :
    ((∃ r ∈ rs, r.success = false) → False) ↔ ∀ r ∈ rs, r.success = true := by
  simp

/-- **What becomes of a result that is no success.** The execution of a statement reports it as a
failure. A batch does not: it reports its unsuccessful results only where it has none, and so does
the commit of a transaction. -/
theorem reports_unsuccessful_iff (b : Backend σ κ) (t : Token σ) (s : ExecutorState σ)
    (ht : t s.host.device = false) :
    (∀ st r h, (b.run st t).outcome s.host = (.ok r, h) → r.success = false →
      Reports st { s with host := h } ((b.execute st t).outcome s)) ∧
    (∀ sts rs h, sts ≠ [] → (b.runBatch sts t).outcome s.host = (.ok rs, h) →
      (((∃ r ∈ rs, r.success = false) →
          Reports (Backend.batchLabel sts) { s with host := h } ((b.batch sts t).outcome s)) ↔
        ∀ r ∈ rs, r.success = true)) ∧
    ∀ (x : Transaction σ κ) rs h, x.backend = b → x.active = true → x.pending ≠ [] →
      (b.runBatch x.pending t).outcome s.host = (.ok rs, h) →
      (((∃ r ∈ rs, r.success = false) →
          Reports (Backend.batchLabel x.pending) { s with host := h }
            (((Transaction.commit t).outcome (x, s)).1,
              ((Transaction.commit t).outcome (x, s)).2.2)) ↔
        ∀ r ∈ rs, r.success = true) := by
  -- a batch that was run gives its results on, whatever they say of themselves
  have hbatch : ∀ sts rs h, sts ≠ [] → (b.runBatch sts t).outcome s.host = (.ok rs, h) →
      ∃ s', (b.batch sts t).outcome s = (.ok rs, s') := by
    intro sts rs h hsts hrun
    rw [b.outcome_batch t s hsts, ht, hrun]
    exact ⟨_, rfl⟩
  refine ⟨?_, ?_, ?_⟩
  · intro st r h hrun hr
    rw [b.outcome_execute, ht, hrun]
    exact ⟨.unsuccessful r.errors, by simp [hr]⟩
  · intro sts rs h hsts hrun
    obtain ⟨s', hs'⟩ := hbatch sts rs h hsts hrun
    rw [hs', ← imp_false_iff_all_success]
    exact imp_congr_right fun _ => iff_false_intro not_reports_ok
  · rintro x rs h rfl hx hpending hrun
    obtain ⟨s', hs'⟩ := hbatch x.pending rs h hpending hrun
    rw [Transaction.outcome_commit hx, hs', ← imp_false_iff_all_success]
    exact imp_congr_right fun _ => iff_false_intro not_reports_ok

/-! ### A full disk -/

namespace Scripted

/-- A backend that is alone on its device. -/
def alone : Backend Script Cursor := backend id fun s _ => s

/-- What a statement comes to that finds the disk full. -/
def diskFull : ResultSet := { success := false, errors := [ascii "disk full"] }

/-- An executor whose next statement finds the disk full. -/
def onFullDisk : ExecutorState Script :=
  { host := { device := { replies := [{ outcome := .ok diskFull }] } }
    loggers := [.stats default] }

/-- A statement. -/
def deletion : Statement := ⟨ascii "DELETE FROM logs", []⟩

end Scripted

open Scripted in
/-- Executed, the statement fails; in a batch it does not. -/
theorem reports_unsuccessful_iff_diskFull :
    Token.never onFullDisk.host.device = false ∧
    Reports deletion
      { onFullDisk with host := ((alone.run deletion Token.never).outcome onFullDisk.host).2 }
      ((alone.execute deletion Token.never).outcome onFullDisk) ∧
    ¬((∃ r ∈ [diskFull], r.success = false) →
      Reports (Backend.batchLabel [deletion])
        { onFullDisk with
          host := ((alone.runBatch [deletion] Token.never).outcome onFullDisk.host).2 }
        ((alone.batch [deletion] Token.never).outcome onFullDisk)) := by
  have h := reports_unsuccessful_iff alone Token.never onFullDisk rfl
  have hbatch := h.2.1 [deletion] [diskFull] _ (List.cons_ne_nil _ _) rfl
  have hfull : ¬∀ r ∈ [diskFull], r.success = true :=
    fun hall => absurd (hall diskFull List.mem_cons_self) Bool.false_ne_true
  exact ⟨rfl, h.1 deletion diskFull _ rfl rfl, mt hbatch.1 hfull⟩

open Scripted in
/-- **A batch passes for a success that is none**: not every call reports the unsuccessful results
of its backend. -/
theorem batch_passes_unsuccessful :
    ¬∀ (σ κ : Type) (b : Backend σ κ) (t : Token σ) (s : ExecutorState σ) (sts : List Statement)
      (rs : List ResultSet) (h : Host σ), sts ≠ [] → t s.host.device = false →
      (b.runBatch sts t).outcome s.host = (.ok rs, h) → (∃ r ∈ rs, r.success = false) →
      Reports (Backend.batchLabel sts) { s with host := h } ((b.batch sts t).outcome s) := by
  intro hclaim
  obtain ⟨f, hf⟩ := hclaim _ _ alone Token.never onFullDisk [deletion]
    [diskFull] _ (List.cons_ne_nil _ _) rfl rfl ⟨diskFull, List.mem_cons_self, rfl⟩
  exact absurd (congrArg (·.1.toBool) hf) Bool.noConfusion

end SqlPlan
