import SqlPlan.Proofs.Execution
import SqlPlan.Proofs.Fingerprint
import SqlPlan.Proofs.TerminalOperation

/-!
# Sessions with and without a cache

A session is any number of terminal operations on queries that are attached to one executor, with
the cache cleared anywhere between them. `Does` says what an operation does: it has its statement
prepared, the loggers are told once, either that the statement was compiled or that it was found,
and the statement of what was prepared goes to the executor. `Run` is a session of such operations.

`run_cached_eq` is the main statement: provided that fingerprints tell apart what is prepared, a
session that shares a cache has the same queries prepared as one without, and hands the same
statements to the executor. What makes it true is `Honest`: every entry of the cache is what
compiling afresh would give.
-/

namespace SqlPlan

variable {σ κ : Type}

/-! ## Sessions -/

/-- A terminal operation on a query. -/
structure Operation (σ : Type) where
  /-- the plan of the query -/
  plan : Plan
  /-- the name of the type of its rows -/
  rowType : Bytes
  /-- the operation -/
  terminal : Terminal σ

namespace Operation

/-- The query, attached to an executor. -/
def handle (b : Backend σ κ) (x : Operation σ) : Handle σ κ := ⟨x.plan, x.rowType, some b⟩

/-- What the operation has prepared. -/
def preparation (Γ : Catalog) (x : Operation σ) : Except TranslationError Preparation := do
  let st ← x.terminal.statement Γ x.plan
  return ⟨(Γ x.plan.source).table, x.terminal.resultType x.rowType, st⟩

/-- The session after the operation. -/
def after (Γ : Catalog) (b : Backend σ κ) (x : Operation σ) (s : SessionState σ) :
    SessionState σ :=
  x.terminal.after Γ (x.handle b) s

end Operation

/-- What is done in a session. -/
inductive Use (σ : Type) where
  /-- an operation -/
  | operate (x : Operation σ)
  /-- the cache is cleared, if there is one -/
  | clear

namespace Use

/-- What is prepared, if the statement can be built. -/
def preparation? (Γ : Catalog) : Use σ → Option Preparation
  | operate x => (x.preparation Γ).toOption
  | clear => none

/-- What the operation comes to with its statement compiled afresh: the compiled query, and the
statement that the executor gets. -/
def fresh? (Γ : Catalog) : Use σ → Option (Compiled × Option Statement)
  | operate x =>
    (x.preparation Γ).toOption.map fun p => (p.fresh, x.terminal.handover.handed? p.statement)
  | clear => none

end Use

/-- What is prepared in a session. -/
def preparations (Γ : Catalog) (uses : List (Use σ)) : List Preparation :=
  uses.filterMap (·.preparation? Γ)

/-- A record of what an operation did. -/
structure Deed where
  /-- what it had prepared -/
  preparation : Preparation
  /-- the compiled query that it got -/
  prepared : Compiled
  /-- was that found in the cache? -/
  hit : Bool
  /-- the statement that the executor got -/
  handed : Option Statement

/-- **What an operation does**, from the session `s` to `s'`. After preparing, the session is
`prepared`. -/
structure Does (Γ : Catalog) (b : Backend σ κ) (x : Operation σ) (s : SessionState σ) (d : Deed)
    (prepared s' : SessionState σ) : Prop where
  /-- the statement is built -/
  built : x.preparation Γ = .ok d.preparation
  /-- it is prepared -/
  prepares : ((x.handle b).prepare Γ d.preparation.statement d.preparation.resultType).outcome s =
    (.ok d.prepared, prepared)
  /-- it is a hit if its fingerprint has an entry -/
  hit : d.hit = (d.preparation.found? s).isSome
  /-- every logger is told of that, and of nothing else -/
  told : prepared.executor = s.executor.notify (d.preparation.told d.hit)
  /-- the cache counts a hit, or has one more entry -/
  entered : prepared.cache = s.cache.map d.preparation.entered
  /-- the executor gets the statement of what was prepared -/
  handed : d.handed = x.terminal.handover.handed? d.prepared.statement
  /-- what the executor makes of the session is what the operation makes of it -/
  after : x.after Γ b s = x.terminal.handover.after b d.prepared.statement prepared
  /-- and there it ends -/
  ends : s' = x.after Γ b s

/-- **A session**: what is done in it, what its operations did, and where it ends. -/
inductive Run (Γ : Catalog) (b : Backend σ κ) :
    SessionState σ → List (Use σ) → List Deed → SessionState σ → Prop where
  /-- nothing is done -/
  | nil {s : SessionState σ} : Run Γ b s [] [] s
  /-- an operation, and more -/
  | operated {s prepared s₁ s' : SessionState σ} {x : Operation σ} {d : Deed}
      {uses : List (Use σ)} {deeds : List Deed} :
      Does Γ b x s d prepared s₁ → Run Γ b s₁ uses deeds s' →
      Run Γ b s (.operate x :: uses) (d :: deeds) s'
  /-- an operation whose statement cannot be built does nothing -/
  | unbuilt {s s' : SessionState σ} {x : Operation σ} {err : TranslationError}
      {uses : List (Use σ)} {deeds : List Deed} :
      x.preparation Γ = .error err → x.after Γ b s = s → Run Γ b s uses deeds s' →
      Run Γ b s (.operate x :: uses) deeds s'
  /-- the cache is cleared -/
  | cleared {s s' : SessionState σ} {uses : List (Use σ)} {deeds : List Deed} :
      Run Γ b { s with cache := s.cache.map QueryCache.clear } uses deeds s' →
      Run Γ b s (.clear :: uses) deeds s'

section

variable {Γ : Catalog} {b : Backend σ κ} {x : Operation σ} {p : Preparation}
  {s s' prepared : SessionState σ} {d : Deed} {uses : List (Use σ)} {deeds : List Deed}

/-- What is prepared is the statement of the operation, for the table and the type of its result. -/
theorem Operation.of_preparation (hx : x.preparation Γ = .ok p) :
    x.terminal.statement Γ x.plan = .ok p.statement ∧ p.table = (Γ x.plan.source).table ∧
      p.resultType = x.terminal.resultType x.rowType := by
  obtain ⟨st, hst, rfl⟩ := Except.bind_pure_eq_ok.1 hx
  exact ⟨hst, rfl, rfl⟩

/-- Nothing is prepared only where the statement cannot be built. -/
theorem Operation.of_preparation_error {err : TranslationError}
    (hx : x.preparation Γ = .error err) : x.terminal.statement Γ x.plan = .error err := by
  cases hst : x.terminal.statement Γ x.plan with
  | error err' =>
    rw [preparation, hst] at hx
    exact congrArg Except.error (Except.error.inj hx)
  | ok st =>
    rw [preparation, hst] at hx
    cases hx

/-- An operation whose statement can be built has it prepared and hands it over. -/
theorem exists_does (b : Backend σ κ) (s : SessionState σ) (hx : x.preparation Γ = .ok p) :
    ∃ d prepared, Does Γ b x s d prepared (x.after Γ b s) := by
  obtain ⟨hst, htable, hresult⟩ := Operation.of_preparation hx
  have hprepare := Handle.outcome_prepare (h := x.handle b) (s := s) rfl htable
  have hafter : x.after Γ b s = _ := Terminal.after_of_ok rfl hst (hresult ▸ hprepare)
  exact ⟨⟨p, (p.found? s).getD p.fresh, (p.found? s).isSome,
      x.terminal.handover.handed? ((p.found? s).getD p.fresh).statement⟩, _,
    ⟨hx, hprepare, rfl, rfl, rfl, rfl, hafter, rfl⟩⟩

/-- Every session goes on to its end. -/
theorem exists_run (Γ : Catalog) (b : Backend σ κ) (uses : List (Use σ)) (s : SessionState σ) :
    ∃ deeds s', Run Γ b s uses deeds s' := by
  induction uses generalizing s with
  | nil => exact ⟨[], s, .nil⟩
  | cons use uses ih =>
    cases use with
    | clear =>
      obtain ⟨deeds, s', hrun⟩ := ih { s with cache := s.cache.map QueryCache.clear }
      exact ⟨deeds, s', .cleared hrun⟩
    | operate x =>
      obtain ⟨deeds, s', hrun⟩ := ih (x.after Γ b s)
      cases hx : x.preparation Γ with
      | ok p =>
        obtain ⟨d, prepared, hdoes⟩ := exists_does b s hx
        exact ⟨d :: deeds, s', .operated hdoes hrun⟩
      | error err =>
        have hafter : x.after Γ b s = s :=
          Terminal.after_of_error (Operation.of_preparation_error hx)
        rw [hafter] at hrun
        exact ⟨deeds, s', .unbuilt hx hafter hrun⟩

/-! ## What a cache holds -/

/-- **A cache is honest**: every entry is what compiling afresh gives, of something that is known
and has its fingerprint. -/
def Honest (known : List Preparation) (c : Option QueryCache) : Prop :=
  ∀ {fp q}, c.bind (·.find? fp) = some q → ∃ p ∈ known, p.fingerprint = fp ∧ q = p.fresh

theorem honest_none (known : List Preparation) : Honest known none := nofun

theorem honest_empty (known : List Preparation) : Honest known (some {}) := nofun

/-- A cache that was cleared says nothing false. -/
theorem Honest.clear {known : List Preparation} (c : Option QueryCache) :
    Honest known (c.map QueryCache.clear) := by
  cases c with
  | none => exact honest_none known
  | some c => exact honest_empty known

/-- Where fingerprints tell apart what is known, what is given is what compiling afresh gives. -/
theorem Honest.found_eq {known : List Preparation} (h : Honest known s.cache)
    (hkeys : ∀ p ∈ known, ∀ p' ∈ known, p.fingerprint = p'.fingerprint → p = p') (hp : p ∈ known) :
    (p.found? s).getD p.fresh = p.fresh := by
  cases hfound : p.found? s with
  | none => rfl
  | some q =>
    obtain ⟨p', hp', hfp, rfl⟩ := h hfound
    rw [Option.getD_some, hkeys p' hp' p hp hfp]

/-- What is entered keeps a cache honest. -/
theorem Honest.entered {known : List Preparation} {c : Option QueryCache} (h : Honest known c)
    (hp : p ∈ known) : Honest known (c.map p.entered) := by
  intro fp q hq
  cases c with
  | none => cases hq
  | some c =>
    have hfind : (p.entered c).find? fp = some q := hq
    rw [p.find?_entered] at hfind
    split at hfind
    · subst fp
      have hgiven := Option.some.inj hfind
      cases hold : c.find? p.fingerprint with
      | none =>
        rw [hold, Option.getD_none] at hgiven
        exact ⟨p, hp, rfl, hgiven.symm⟩
      | some old =>
        rw [hold, Option.getD_some] at hgiven
        exact h (hgiven ▸ hold)
    · exact h hfind

/-! ## Sessions give what compiling afresh gives -/

/-- What is given is what stands in the cache, or what compiling afresh gives. -/
theorem Does.prepared_eq (h : Does Γ b x s d prepared s') :
    d.prepared = (d.preparation.found? s).getD d.preparation.fresh := by
  obtain ⟨-, htable, -⟩ := Operation.of_preparation h.built
  have hprepare := Handle.outcome_prepare (h := x.handle b) (s := s) rfl htable
  rw [h.prepares] at hprepare
  exact Except.ok.inj (congrArg (·.1) hprepare)

/-- Only preparing changes the cache. -/
theorem Does.cache_eq (h : Does Γ b x s d prepared s') :
    s'.cache = s.cache.map d.preparation.entered := by
  rw [h.ends, h.after, Handover.cache_after, h.entered]

/-- **A session gives what compiling afresh gives**, if it begins with an honest cache and
fingerprints tell apart what is prepared in it. -/
theorem Run.deeds_eq {known : List Preparation} (hrun : Run Γ b s uses deeds s')
    (hkeys : ∀ p ∈ known, ∀ p' ∈ known, p.fingerprint = p'.fingerprint → p = p')
    (huses : ∀ p ∈ preparations Γ uses, p ∈ known) (hs : Honest known s.cache) :
    deeds.map (fun d => (d.prepared, d.handed)) = uses.filterMap (·.fresh? Γ) := by
  -- the invariant is that the cache is honest; only preparing and clearing touch it
  induction hrun with
  | nil => rfl
  | @operated s prepared s₁ s' x d uses deeds hdoes _ ih =>
    have hprep : Use.preparation? Γ (.operate x) = some d.preparation := by
      rw [Use.preparation?, hdoes.built]
      rfl
    have hfresh : Use.fresh? Γ (.operate x) = some
        (d.preparation.fresh, x.terminal.handover.handed? d.preparation.statement) := by
      rw [Use.fresh?, hdoes.built]
      rfl
    rw [preparations, List.filterMap_cons_some hprep, List.forall_mem_cons] at huses
    -- an honest cache gives what compiling afresh gives, and stays honest with it entered
    have hgiven : d.prepared = d.preparation.fresh := by
      rw [hdoes.prepared_eq, hs.found_eq hkeys huses.1]
    have hrest := ih huses.2 (hdoes.cache_eq ▸ hs.entered huses.1)
    rw [List.map_cons, List.filterMap_cons_some hfresh, hrest, hdoes.handed, hgiven]
    rfl
  | @unbuilt s s' x err uses deeds herror _ _ ih =>
    have hprep : Use.preparation? Γ (.operate x) = none := by
      rw [Use.preparation?, herror]
      rfl
    have hfresh : Use.fresh? Γ (.operate x) = none := by
      rw [Use.fresh?, herror]
      rfl
    rw [preparations, List.filterMap_cons_none hprep] at huses
    rw [List.filterMap_cons_none hfresh]
    exact ih huses hs
  | @cleared s s' uses deeds _ ih =>
    rw [preparations, List.filterMap_cons_none rfl] at huses
    rw [List.filterMap_cons_none rfl]
    exact ih huses (Honest.clear _)

end

/-! ## What is found -/

/-- For each operation whose statement can be built, whether it finds it in the cache. -/
def hits (Γ : Catalog) : Option QueryCache → List (Use σ) → List Bool
  | _, [] => []
  | c, .clear :: uses => hits Γ (c.map QueryCache.clear) uses
  | c, .operate x :: uses =>
    match x.preparation Γ with
    | .error _ => hits Γ c uses
    | .ok p => (c.bind (·.find? p.fingerprint)).isSome :: hits Γ (c.map p.entered) uses

/-- What is found in a session does not depend on the executor. -/
theorem Run.hits_eq {Γ : Catalog} {b : Backend σ κ} {s s' : SessionState σ} {uses : List (Use σ)}
    {deeds : List Deed} (hrun : Run Γ b s uses deeds s') :
    deeds.map Deed.hit = hits Γ s.cache uses := by
  induction hrun with
  | nil => rfl
  | operated hdoes _ ih =>
    rw [List.map_cons, ih, hdoes.hit, hdoes.cache_eq, hits, hdoes.built]
    rfl
  | unbuilt herror _ _ ih => rw [ih, hits, herror]
  | cleared _ ih => rw [ih, hits]

/-! ## With and without a cache -/

/-- **A cache changes nothing but how a query is come by.** Provided that fingerprints tell apart
what is prepared in a session, the session has the same queries prepared with a cache as without
one, and hands the same statements to the executor in the same order. Every session runs to its
end, and in each of its steps the loggers are told once, of a compilation or of a hit. -/
theorem run_cached_eq (Γ : Catalog) (b : Backend σ κ) (uses : List (Use σ)) (x : ExecutorState σ)
    (hkeys : ∀ p ∈ preparations Γ uses, ∀ p' ∈ preparations Γ uses,
      p.fingerprint = p'.fingerprint → p = p') :
    (∀ cache, ∃ deeds s, Run Γ b ⟨x, cache⟩ uses deeds s) ∧
    ∀ {plain cached : List Deed} {s s' : SessionState σ}, Run Γ b ⟨x, none⟩ uses plain s →
      Run Γ b ⟨x, some {}⟩ uses cached s' →
      cached.map Deed.prepared = plain.map Deed.prepared ∧
      cached.filterMap Deed.handed = plain.filterMap Deed.handed := by
  refine ⟨fun cache => exists_run Γ b uses _, ?_⟩
  intro plain cached s s' hplain hcached
  have hsame : cached.map (fun d => (d.prepared, d.handed)) =
      plain.map fun d => (d.prepared, d.handed) :=
    (hcached.deeds_eq hkeys (fun _ hp => hp) (honest_empty _)).trans
      (hplain.deeds_eq hkeys (fun _ hp => hp) (honest_none _)).symm
  constructor
  · have := congrArg (List.map Prod.fst) hsame
    rwa [List.map_map, List.map_map] at this
  · have := congrArg (List.filterMap Prod.snd) hsame
    rwa [List.filterMap_map, List.filterMap_map] at this

open Statement in
/-- The users of a name and a city, twice, their number, and after the cache was cleared a stream
on them. -/
def revisit : List (Use Scripted.Script) :=
  let x (terminal : Terminal Scripted.Script) : Use Scripted.Script :=
    .operate ⟨.query (byNameAndCity (ascii "Ann") (ascii "Paris")), ascii "User", terminal⟩
  [x (.toList (users 0) Token.never), x (.toList (users 0) Token.never), x (.count Token.never),
    .clear, x (.stream Token.never)]

open Statement in
/-- The second request for the users is answered from the cache, the stream after clearing is not,
and the same statements are handed over as without a cache. -/
theorem run_cached_eq_revisit :
    (∀ p ∈ preparations users revisit, ∀ p' ∈ preparations users revisit,
      p.fingerprint = p'.fingerprint → p = p') ∧
    ∃ plain cached s s',
      Run users Scripted.alone ⟨{ host := { device := {} } }, none⟩ revisit plain s ∧
      Run users Scripted.alone ⟨{ host := { device := {} } }, some {}⟩ revisit cached s' ∧
      plain.map Deed.hit = [false, false, false, false] ∧
      cached.map Deed.hit = [false, true, false, false] ∧
      cached.map Deed.prepared = plain.map Deed.prepared ∧
      cached.filterMap Deed.handed = plain.filterMap Deed.handed := by
  have hkeys : ∀ p ∈ preparations users revisit, ∀ p' ∈ preparations users revisit,
      p.fingerprint = p'.fingerprint → p = p' := by decide
  obtain ⟨hruns, hsame⟩ :=
    run_cached_eq users Scripted.alone revisit { host := { device := {} } } hkeys
  obtain ⟨plain, s, hplain⟩ := hruns none
  obtain ⟨cached, s', hcached⟩ := hruns (some {})
  exact ⟨hkeys, plain, cached, s, s', hplain, hcached, hplain.hits_eq.trans (by decide),
    hcached.hits_eq.trans (by decide), hsame hplain hcached⟩

end SqlPlan
