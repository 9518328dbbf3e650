import Mathlib.Algebra.GroupWithZero.Nat
import SqlPlan.Proofs.Execution

/-!
# What the statistics of an executor add up to

An executor is asked to execute statements, to open streams and to execute batches, in any order,
and anything may happen to its host in between. `Request.make` makes one such call and `Request.serve` a
list of them. What a call comes to is its answer, and the answer says what the loggers are told
(`Answer.told`): `Request.loggers_make` for one call and `Request.loggers_serve` for a run, whatever
the backend does.

`Request.serve_tallies` is the main statement. The counts of a logger grow by what the answers say,
where each failure is counted in two maps: by the first line of its message, and by its class.
-/

namespace SqlPlan

variable {σ κ : Type}

/-! ## Counts -/

namespace Stats

/-- Placing a count puts it in place of the one that was there. -/
theorem foldr_place (k : Bytes) (n : Nat) {ps : List (Bytes × Nat)} (h : Ascending ps) :
    (ByteMap.place k n ps).foldr (fun e m => e.2 + m) 0 +
        ((ps.find? fun p => p.1 == k).map (·.2)).getD 0 =
      ps.foldr (fun e m => e.2 + m) 0 + n := by
  induction ps with
  | nil => simp [ByteMap.place]
  | cons p ps ih =>
    obtain ⟨hp, hps⟩ := List.pairwise_cons.1 h
    rw [ByteMap.place]
    split
    · rename_i hk
      -- the keys rise, so a key below the first one is new
      have hnew : (p :: ps).find? (fun q => q.1 == k) = none := by
        rw [List.find?_eq_none]
        intro q hq hqk
        obtain rfl : q.1 = k := by simpa using hqk
        rcases List.mem_cons.1 hq with rfl | hq
        · exact absurd hk (List.lt_irrefl _)
        · exact absurd (List.lt_trans hk (hp q hq)) (List.lt_irrefl _)
      rw [hnew]
      simp only [List.foldr_cons, Option.map_none, Option.getD_none]
      omega
    · split
      · rename_i hk
        subst hk
        simp only [List.foldr_cons, List.find?_cons_of_pos, BEq.rfl, Option.map_some,
          Option.getD_some]
        omega
      · rename_i hne
        have hpk : (p.1 == k) = false := by simpa using Ne.symm hne
        have hrest := ih hps
        simp only [List.foldr_cons, List.find?_cons, hpk]
        omega

/-- One more at a key is one more in all. -/
theorem total_increment (m : ByteMap Nat) (k : Bytes) : total (m.increment k) = total m + 1 := by
  have hplace : total (m.increment k) + (m.find? k).getD 0 =
      total m + ((m.find? k).getD 0 + 1) := foldr_place k _ m.ascending
  omega

/-- **By how much counts grow**: by some results, and by a number of failures, which are counted in
both of their maps. -/
structure Grows (x x' : Stats) (results : List ResultSet) (failures : Nat) : Prop where
  /-- each result is that of a statement -/
  queries : x'.queries = x.queries + results.length
  /-- the rows of the results -/
  rows : x'.rows = x.rows + (results.map (·.rows.length)).sum
  /-- the failures by the first lines of their messages -/
  errors : total x'.errors = total x.errors + failures
  /-- the failures by their classes -/
  classes : total x'.classes = total x.classes + failures

variable {x x' x'' : Stats} {rs rs' : List ResultSet} {n n' : Nat}

theorem Grows.refl (x : Stats) : x.Grows x [] 0 := ⟨rfl, rfl, rfl, rfl⟩

theorem Grows.trans (h : x.Grows x' rs n) (h' : x'.Grows x'' rs' n') :
    x.Grows x'' (rs ++ rs') (n + n') := by
  refine ⟨?_, ?_, ?_, ?_⟩
  · rw [h'.queries, h.queries, List.length_append, Nat.add_assoc]
  · rw [h'.rows, h.rows, List.map_append, List.sum_append, Nat.add_assoc]
  · rw [h'.errors, h.errors, Nat.add_assoc]
  · rw [h'.classes, h.classes, Nat.add_assoc]

/-- An executed statement is counted with its rows. -/
theorem grows_executed (x : Stats) (st : Statement) (r : ResultSet) :
    x.Grows (x.observe (.executed st r)) [r] 0 :=
  ⟨rfl, rfl, rfl, rfl⟩

/-- A failure is counted once in each of the two maps. -/
theorem grows_failed (x : Stats) (st : Statement) (f : Failure) :
    x.Grows (x.observe (.failed st f)) [] 1 :=
  ⟨rfl, rfl, total_increment _ _, total_increment _ _⟩

/-- The statements of a batch are counted one after the other, each with its result. -/
theorem grows_batch (sts : List Statement) (rs : List ResultSet) (x : Stats) :
    x.Grows (((sts.zip rs).map fun p => .executed p.1 p.2).foldl observe x)
      (rs.take sts.length) 0 := by
  induction sts generalizing rs x with
  | nil => exact .refl x
  | cons st sts ih =>
    cases rs with
    | nil => exact .refl x
    | cons r rs => exact (x.grows_executed st r).trans (ih rs _)

end Stats

/-- A logger counts events as its statistics do. -/
theorem Logger.stats?_observe (l : Logger) (es : List Event) :
    (es.foldl Logger.observe l).stats? = l.stats?.map fun x => es.foldl Stats.observe x := by
  induction es generalizing l with
  | nil => exact Option.map_id'.symm ▸ rfl
  | cons e es ih =>
    have hone : (l.observe e).stats? = l.stats?.map (·.observe e) := by
      rcases l with _ | x | ⟨_ | _⟩ | ⟨_, x⟩ <;> cases e <;> rfl
    rw [List.foldl_cons, ih, hone, Option.map_map]
    rfl

/-! ## Calls and answers -/

/-- A call to an executor. -/
inductive Request (σ : Type) where
  /-- to execute a statement -/
  | execute (st : Statement) (t : Token σ)
  /-- to open a stream on a statement -/
  | stream (st : Statement) (t : Token σ)
  /-- to execute a batch -/
  | batch (sts : List Statement) (t : Token σ)
  /-- no call: something else happens to the host, as when a token is cancelled or a row is taken
  from a stream -/
  | meanwhile (f : Host σ → Host σ)

/-- What a call to an executor comes to. -/
inductive Answer (κ : Type) where
  /-- the result of a statement -/
  | result (st : Statement) (r : ResultSet)
  /-- an open stream -/
  | opened (k : κ)
  /-- the results of a batch -/
  | results (sts : List Statement) (rs : List ResultSet)
  /-- an error, and the statement it is reported with -/
  | failed (st : Statement) (e : Error)
  /-- no call was made -/
  | nothing

namespace Answer

/-- The answer that an outcome is, for a call that is reported with a statement. -/
def ofOutcome {α : Type} (st : Statement) (f : α → Answer κ) : Except Error α → Answer κ
  | .ok x => f x
  | .error e => .failed st e

/-- Is it the result of a statement? -/
def isResult : Answer κ → Bool
  | result .. => true
  | opened _ | results .. | failed .. | nothing => false

/-- Is it a failure of the database? -/
def isFailure : Answer κ → Bool
  | failed _ (.failure _) => true
  | _ => false

/-- How many results of a batch there are for a statement of it. -/
def paired : Answer κ → Nat
  | results sts rs => min rs.length sts.length
  | result .. | opened _ | failed .. | nothing => 0

/-- The results that are counted: that of a statement, and those of a batch as far as there are
statements. -/
def counted : Answer κ → List ResultSet
  | result _ r => [r]
  | results sts rs => rs.take sts.length
  | opened _ | failed .. | nothing => []

/-- Is it a stream, a batch of no statements, an error that is no failure of the database, or no
answer at all? -/
def isQuiet : Answer κ → Bool
  | opened _ | nothing => true
  | results sts _ => sts.isEmpty
  | failed _ e => match e with
    | .failure _ => false
    | _ => true
  | result .. => false

/-- What the loggers are told. -/
def told : Answer κ → List Event
  | result st r => [.executed st r]
  | opened _ | nothing => []
  | results sts rs => (sts.zip rs).map fun p => .executed p.1 p.2
  | failed st e => match e with
    | .failure f => [.failed st f]
    | _ => []

theorem told_of_isQuiet {a : Answer κ} (h : a.isQuiet = true) : a.told = [] := by
  cases a with
  | result => cases h
  | opened | nothing => rfl
  | results sts rs =>
    obtain rfl := List.isEmpty_iff.1 h
    rfl
  | failed st e =>
    cases e with
    | failure f => cases h
    | _ => rfl

/-- Every result that is counted is that of a statement, or one of a batch. -/
theorem length_counted (as : List (Answer κ)) :
    (as.flatMap counted).length = as.countP isResult + (as.map paired).sum := by
  induction as with
  | nil => rfl
  | cons a as ih =>
    have hone : a.counted.length = (if a.isResult then 1 else 0) + a.paired := by
      cases a with
      | result | opened | failed | nothing => rfl
      | results sts rs =>
        rw [counted, List.length_take, Nat.min_comm]
        exact (Nat.zero_add _).symm
    rw [List.flatMap_cons, List.length_append, ih, hone, List.countP_cons, List.map_cons,
      List.sum_cons]
    omega

/-- What the loggers are told makes counts grow by the results that are counted, and by one for a
failure. -/
theorem grows_told (a : Answer κ) (x : Stats) :
    x.Grows (a.told.foldl Stats.observe x) a.counted (if a.isFailure then 1 else 0) := by
  cases a with
  | result st r => exact x.grows_executed st r
  | opened | nothing => exact .refl x
  | results sts rs => exact x.grows_batch sts rs
  | failed st e =>
    cases e with
    | failure f => exact x.grows_failed st f
    | _ => exact .refl x

/-- What several answers tell makes counts grow by all of them. -/
theorem grows_flatMap_told (as : List (Answer κ)) (x : Stats) :
    x.Grows ((as.flatMap told).foldl Stats.observe x) (as.flatMap counted)
      (as.countP isFailure) := by
  induction as generalizing x with
  | nil => exact .refl x
  | cons a as ih =>
    rw [List.flatMap_cons, List.foldl_append, List.flatMap_cons, List.countP_cons, Nat.add_comm]
    exact (a.grows_told x).trans (ih _)

end Answer

namespace Request

variable (b : Backend σ κ)

/-- Makes the call. -/
def make (c : Request σ) (s : ExecutorState σ) : Answer κ × ExecutorState σ :=
  match c with
  | .execute st t => ((b.execute st t).outcome s).map (.ofOutcome st (.result st)) id
  | .stream st t => ((b.stream st t).outcome s).map (.ofOutcome st .opened) id
  | .batch sts t =>
    ((b.batch sts t).outcome s).map (.ofOutcome (Backend.batchLabel sts) (.results sts)) id
  | .meanwhile f => (.nothing, { s with host := f s.host })

/-- Makes calls one after the other, whatever they come to: the answers, and what is left. -/
def serve : List (Request σ) → ExecutorState σ → List (Answer κ) × ExecutorState σ
  | [], s => ([], s)
  | c :: cs, s =>
    let (a, s') := c.make b s
    let (as, s'') := serve cs s'
    (a :: as, s'')

/-- An error is told if it is a failure of the database. -/
theorem loggers_reportFailure (st : Statement) (e : Error) (s : ExecutorState σ) :
    (Backend.reportFailure st e s).loggers =
      s.loggers.map fun l => (Answer.failed (κ := κ) st e).told.foldl Logger.observe l := by
  cases e with
  | failure f => rfl
  | _ => exact (List.map_id' _).symm

/-- The loggers are told of statements and their results one after the other. -/
theorem loggers_executed (ps : List (Statement × ResultSet)) (s : ExecutorState σ) :
    (ps.foldl (fun s p => s.notify (.executed p.1 p.2)) s).loggers =
      s.loggers.map fun l => (ps.map fun p => .executed p.1 p.2).foldl Logger.observe l := by
  induction ps generalizing s with
  | nil => exact (List.map_id' _).symm
  | cons p ps ih =>
    rw [List.foldl_cons, ih]
    exact List.map_map

/-- **The loggers are told what the answer says**, and of nothing else. -/
theorem loggers_make (c : Request σ) (s : ExecutorState σ) :
    (c.make b s).2.loggers =
      s.loggers.map fun l => (c.make b s).1.told.foldl Logger.observe l := by
  -- each request tells its loggers at one place: where it fails, or where results return
  cases c with
  | execute st t =>
    rw [make, b.outcome_execute]
    split
    · rfl
    · rcases (b.run st t).outcome s.host with ⟨e | r, h⟩
      · exact loggers_reportFailure st e { s with host := h }
      · dsimp only
        split <;> rfl
  | stream st t =>
    rw [make, b.outcome_stream]
    split
    · rfl
    · rcases (b.openStream st t).outcome s.host with ⟨e | k, h⟩
      · exact loggers_reportFailure st e { s with host := h }
      · exact (List.map_id' _).symm
  | batch sts t =>
    by_cases hsts : sts = []
    · subst hsts
      exact (List.map_id' _).symm
    · rw [make, b.outcome_batch t s hsts]
      split
      · rfl
      · rcases (b.runBatch sts t).outcome s.host with ⟨e | rs, h⟩
        · exact loggers_reportFailure _ e { s with host := h }
        · exact loggers_executed (sts.zip rs) { s with host := h }
  | meanwhile f => exact (List.map_id' _).symm

/-- In a run the loggers are told what all answers say, in their order. -/
theorem loggers_serve (cs : List (Request σ)) (s : ExecutorState σ) :
    (serve b cs s).2.loggers = s.loggers.map fun l =>
      ((serve b cs s).1.flatMap Answer.told).foldl Logger.observe l := by
  induction cs generalizing s with
  | nil => exact (List.map_id' _).symm
  | cons c cs ih =>
    have hrest := ih (c.make b s).2
    rw [loggers_make, List.map_map] at hrest
    refine hrest.trans (List.map_congr_left fun l _ => ?_)
    exact List.foldl_append.symm

/-- **The statistics of an executor add up.** From whatever counts a logger has before some calls,
its statements grow by the number of executed statements that returned and, for each batch that
returned, by its results as far as there are statements; its rows by those of these results; and its
failures, by first lines and by classes alike, by the number of calls that ended in a failure of the
database. Streams that were opened, empty batches and calls that ended in any other error change
nothing of any logger. -/
theorem serve_tallies (cs : List (Request σ)) (s : ExecutorState σ) :
    (∀ (i : Nat) (x : Stats), s.loggers[i]?.bind Logger.stats? = some x →
      ∃ x', (serve b cs s).2.loggers[i]?.bind Logger.stats? = some x' ∧
        x'.queries = x.queries + ((serve b cs s).1.countP Answer.isResult +
          ((serve b cs s).1.map Answer.paired).sum) ∧
        x'.rows = x.rows +
          (((serve b cs s).1.flatMap Answer.counted).map (·.rows.length)).sum ∧
        Stats.total x'.errors = Stats.total x.errors +
          (serve b cs s).1.countP Answer.isFailure ∧
        Stats.total x'.classes = Stats.total x.classes +
          (serve b cs s).1.countP Answer.isFailure) ∧
    ∀ (c : Request σ) (s : ExecutorState σ), (c.make b s).1.isQuiet = true →
      (c.make b s).2.loggers = s.loggers := by
  constructor
  · intro i x hx
    obtain ⟨l, hl, hlx⟩ := Option.bind_eq_some_iff.1 hx
    -- how a logger grows depends on what it is told, not on the request that it comes from
    have hgrows := Answer.grows_flatMap_told (serve b cs s).1 x
    refine ⟨_, ?_, ?_, hgrows.rows, hgrows.errors, hgrows.classes⟩
    · rw [loggers_serve, List.getElem?_map, hl, Option.map_some, Option.bind_some,
        Logger.stats?_observe, hlx, Option.map_some]
    · rw [hgrows.queries, Answer.length_counted]
  · intro c s hquiet
    rw [loggers_make, Answer.told_of_isQuiet hquiet]
    exact List.map_id' _

/-! ### A busy desk -/

/-- A backend that is about to give two rows, to be out of disk space, to open a stream, to execute
a batch, to lose its script and to wait in vain for a lock. -/
def busyDesk : ExecutorState Scripted.Script where
  host.device.replies :=
    [{ outcome := .ok { rows := [default, default] } }, { outcome := .ok Scripted.diskFull }, {},
      { outcome := .ok { rows := [default] } }, {},
      { outcome := .error (.foreign ⟨ascii "logic_error", ascii "lost"⟩) },
      { outcome := .error (.failure ⟨.timeout, ascii "database is locked", []⟩) }]
  loggers := [.silent, .console false default]

/-- The calls that it gets, the last of them with a token that is cancelled by then. -/
def busyCalls : List (Request Scripted.Script) :=
  let t : Token Scripted.Script := fun d => d.calls.isEmpty
  let st := Scripted.deletion
  [.execute st Token.never, .execute st t, .stream st t, .batch [st, st] t, .batch [] t,
    .execute st t, .stream st t, .meanwhile fun h => { h with device := {} }, .execute st t]

/-- One statement and two of a batch are counted with three rows, and three failures. -/
theorem serve_tallies_busyDesk :
    busyDesk.loggers[1]?.bind Logger.stats? = some {} ∧
    (∃ x', (serve Scripted.alone busyCalls busyDesk).2.loggers[1]?.bind Logger.stats? = some x' ∧
      x'.queries = 3 ∧ x'.rows = 3 ∧ Stats.total x'.errors = 3 ∧ Stats.total x'.classes = 3) ∧
    ((Request.batch [] Token.never).make Scripted.alone busyDesk).2.loggers =
      busyDesk.loggers := by
  obtain ⟨hcounts, hquiet⟩ := serve_tallies Scripted.alone busyCalls busyDesk
  obtain ⟨x', hx', hqueries, hrows, herrors, hclasses⟩ := hcounts 1 {} rfl
  have hfailures : (serve Scripted.alone busyCalls busyDesk).1.countP Answer.isFailure = 3 := by
    decide
  rw [hfailures] at herrors hclasses
  exact ⟨rfl, ⟨x', hx', hqueries.trans (by decide), hrows.trans (by decide), herrors, hclasses⟩,
    hquiet (.batch [] Token.never) busyDesk rfl⟩

end Request

end SqlPlan
