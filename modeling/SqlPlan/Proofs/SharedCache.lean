import Mathlib.Data.List.Nodup
import Mathlib.Logic.Function.Basic
import SqlPlan.Cache

/-!
# A cache shared by many callers

Getting a query from a cache is two sections under its lock with the compile function between them,
outside it. Calls of any number of callers, and calls that compile functions themselves make, may
take their turns in any order, and `clear` may come in anywhere. `Path s turns t` says that the
shared cache gets from `s` to `t` by such turns. What each turn does to the cache is `lookUp`,
`enter` or `clear`; `path_getOrCompile` says that `getOrCompile` takes its turns in that way, also
when its compile function uses the cache.

`Path.accounts` is the main statement: the counts of a cache are right at any moment, a call that
fails leaves no trace, and what calls return for a fingerprint is the one entry that was compiled
for it, until the cache is cleared. Turns are atomic because of the lock; nothing is said about the
order in which callers get it.
-/

namespace SqlPlan

namespace QueryCache

/-! ## The two sections under the lock -/

variable {c c' : QueryCache} {fp fp' : Bytes} {q made : Compiled}

/-- A lookup that finds an entry counts one hit more. -/
theorem lookUp_eq_some : c.lookUp fp = (some q, c') ↔
    c.find? fp = some q ∧ c' = { c with hits := c.hits + 1 } := by
  rw [lookUp]
  cases c.find? fp with
  | none => simp
  | some old => simp [eq_comm]

/-- A lookup that finds none counts nothing: whether it is a miss shows when the query is
entered. -/
theorem lookUp_eq_none : c.lookUp fp = (none, c') ↔ c.find? fp = none ∧ c' = c := by
  rw [lookUp]
  cases c.find? fp with
  | none => simp [eq_comm]
  | some old => simp

/-- A query is entered where its fingerprint has none; else the entry stands, and was found. -/
theorem enter_eq {hit : Bool} : c.enter fp made = ((q, hit), c') ↔
    (c.find? fp = some q ∧ hit = true ∧ c' = { c with hits := c.hits + 1 }) ∨
    (c.find? fp = none ∧ q = made ∧ hit = false ∧
      c' = { c with entries := (fp, made) :: c.entries, misses := c.misses + 1 }) := by
  rw [enter]
  cases c.find? fp with
  | none => simp [eq_comm, and_assoc]
  | some old => simp [eq_comm, and_assoc]

/-- A query that was entered is found under its fingerprint; all others stand as they did. -/
theorem find?_entered (misses : Nat) :
    find? { c with entries := (fp, made) :: c.entries, misses := misses } fp' =
      if fp' = fp then some made else c.find? fp' := by
  rw [find?, List.lookup_cons]
  by_cases h : fp' = fp
  · simp [h]
  · simp [h, beq_eq_false_iff_ne.2 h, find?]

/-- A fingerprint without an entry is no key. -/
theorem not_mem_keys_of_find?_eq_none (h : c.find? fp = none) :
    fp ∉ c.entries.map Prod.fst := by
  intro hmem
  obtain ⟨e, he, rfl⟩ := List.mem_map.1 hmem
  rw [find?, List.lookup_eq_none_iff] at h
  simpa using h e he

/-! ## Turns -/

/-- What happens in one turn at a cache. Calls are numbered in the order of their lookups. -/
inductive Turn where
  /-- a call begins, finds its entry, and returns it -/
  | found (call : Nat) (fp : Bytes) (q : Compiled)
  /-- a call begins, finds no entry, and has its query compiled -/
  | missed (call : Nat) (fp : Bytes)
  /-- a call enters what was compiled for it, and returns the entry that stands -/
  | entered (call : Nat) (fp : Bytes) (made q : Compiled)
  /-- the compile function of a call throws, and so does the call -/
  | failed (call : Nat) (fp : Bytes)
  /-- the cache is cleared -/
  | cleared
deriving DecidableEq

/-- The call that takes the turn. -/
def Turn.call? : Turn → Option Nat
  | .found call _ _ | .missed call _ | .entered call _ _ _ | .failed call _ => some call
  | .cleared => none

/-- What a call returns in the turn, and for which fingerprint. -/
def Turn.returned? : Turn → Option (Bytes × Compiled)
  | .found _ fp q | .entered _ fp _ q => some (fp, q)
  | .missed .. | .failed .. | .cleared => none

/-- A cache with the calls that are under way. -/
structure Shared where
  /-- the cache -/
  cache : QueryCache := {}
  /-- the number of calls that have begun -/
  begun : Nat := 0
  /-- the fingerprints for which compile functions run, by call -/
  compiling : Nat → Option Bytes := fun _ => none

/-- One turn: a section under the lock, or the end of a compile function that throws. What a compile
function gives is up to it. -/
inductive Step : Shared → Turn → Shared → Prop where
  /-- the lookup of a call that finds its entry -/
  | found {s : Shared} {fp : Bytes} {q : Compiled} {c : QueryCache} :
      s.cache.lookUp fp = (some q, c) →
      Step s (.found s.begun fp q) { s with cache := c, begun := s.begun + 1 }
  /-- the lookup of a call that finds none -/
  | missed {s : Shared} (fp : Bytes) {c : QueryCache} :
      s.cache.lookUp fp = (none, c) →
      Step s (.missed s.begun fp)
        { cache := c, begun := s.begun + 1
          compiling := Function.update s.compiling s.begun (some fp) }
  /-- the insertion of a call whose compile function gave a query -/
  | entered {s : Shared} (call : Nat) {fp : Bytes} (made : Compiled) {q : Compiled} {hit : Bool}
      {c : QueryCache} :
      s.compiling call = some fp → s.cache.enter fp made = ((q, hit), c) →
      Step s (.entered call fp made q)
        { s with cache := c, compiling := Function.update s.compiling call none }
  /-- the end of a call whose compile function throws -/
  | failed {s : Shared} (call : Nat) {fp : Bytes} :
      s.compiling call = some fp →
      Step s (.failed call fp) { s with compiling := Function.update s.compiling call none }
  /-- the cache is cleared, whatever calls are under way -/
  | cleared {s : Shared} : Step s .cleared { s with cache := s.cache.clear }

/-- Any number of turns, the latest first. -/
inductive Path (s : Shared) : List Turn → Shared → Prop where
  /-- no turn -/
  | refl : Path s [] s
  /-- one more turn -/
  | step {turns : List Turn} {t u : Shared} {x : Turn} :
      Path s turns t → Step t x u → Path s (x :: turns) u

namespace Path

variable {s t u : Shared} {turns older newer : List Turn}

theorem trans (h : Path s older t) (h' : Path t newer u) : Path s (newer ++ older) u := by
  induction h' with
  | refl => exact h
  | step _ hx ih => exact ih.step hx

/-- A path can be cut between any two turns. -/
theorem split (h : Path s (newer ++ older) u) : ∃ t, Path s older t ∧ Path t newer u := by
  induction newer generalizing u with
  | nil => exact ⟨u, h, .refl⟩
  | cons x newer ih =>
    cases h with
    | step h hx =>
      obtain ⟨t, hold, hnew⟩ := ih h
      exact ⟨t, hold, hnew.step hx⟩

/-- A path can be cut around any turn. -/
theorem split_at {x : Turn} (h : Path s (newer ++ x :: older) u) :
    ∃ t t', Path s older t ∧ Step t x t' ∧ Path s (x :: older) t' ∧ Path t' newer u := by
  obtain ⟨t', hold, hnew⟩ := split h
  cases hold with
  | step hold hx => exact ⟨_, t', hold, hx, hold.step hx, hnew⟩

end Path

/-! ## The turns of one call -/

/-- The turns that a call takes. -/
def turnsOf (call : Nat) (turns : List Turn) : List Turn :=
  turns.filter (·.call? == some call)

/-- **How far a call is**, and the turns it took to get there, the latest first. -/
inductive Progress (s : Shared) (call : Nat) : List Turn → Prop where
  /-- it has not begun -/
  | unborn : s.begun ≤ call → s.compiling call = none → Progress s call []
  /-- its compile function runs -/
  | compiling {fp : Bytes} : call < s.begun → s.compiling call = some fp →
      Progress s call [.missed call fp]
  /-- it has returned what it found -/
  | found {fp : Bytes} {q : Compiled} : call < s.begun → s.compiling call = none →
      Progress s call [.found call fp q]
  /-- it has returned after compiling -/
  | entered {fp : Bytes} {made q : Compiled} : call < s.begun → s.compiling call = none →
      Progress s call [.entered call fp made q, .missed call fp]
  /-- it has thrown -/
  | failed {fp : Bytes} : call < s.begun → s.compiling call = none →
      Progress s call [.failed call fp, .missed call fp]

/-- A turn of others leaves a call where it is. -/
theorem Progress.frame {s s' : Shared} {call : Nat} {turns : List Turn} (h : Progress s call turns)
    (hbegun : s'.begun ≤ call ↔ s.begun ≤ call)
    (hcompiling : s'.compiling call = s.compiling call) : Progress s' call turns := by
  cases h with
  | unborn hb hc => exact .unborn (hbegun.2 hb) (hcompiling.trans hc)
  | compiling hb hc => exact .compiling (by omega) (hcompiling.trans hc)
  | found hb hc => exact .found (by omega) (hcompiling.trans hc)
  | entered hb hc => exact .entered (by omega) (hcompiling.trans hc)
  | failed hb hc => exact .failed (by omega) (hcompiling.trans hc)

/-- A call that has not begun has taken no turn. -/
theorem Progress.of_begun_le {s : Shared} {call : Nat} {turns : List Turn}
    (h : Progress s call turns) (hle : s.begun ≤ call) :
    turns = [] ∧ s.compiling call = none := by
  cases h with
  | unborn _ hc => exact ⟨rfl, hc⟩
  | compiling hb _ | found hb _ | entered hb _ | failed hb _ => exact absurd hb (by omega)

/-- A call whose compile function runs has missed its entry, and done nothing else. -/
theorem Progress.of_compiling {s : Shared} {call : Nat} {fp : Bytes} {turns : List Turn}
    (h : Progress s call turns) (hrun : s.compiling call = some fp) :
    call < s.begun ∧ turns = [.missed call fp] := by
  cases h with
  | compiling hb hc =>
    obtain rfl := Option.some.inj (hc.symm.trans hrun)
    exact ⟨hb, rfl⟩
  | unborn _ hc | found _ hc | entered _ hc | failed _ hc => simp [hc] at hrun

/-- One turn takes its own call one step further. -/
theorem Progress.step {s s' : Shared} {call : Nat} {turns : List Turn} {x : Turn}
    (h : Progress s call (turnsOf call turns)) (hx : Step s x s') :
    Progress s' call (turnsOf call (x :: turns)) := by
  -- a turn of another call is none of this one's
  have hother : x.call? ≠ some call → turnsOf call (x :: turns) = turnsOf call turns := by
    intro hc
    simp [turnsOf, hc]
  have hown : x.call? = some call → turnsOf call (x :: turns) = x :: turnsOf call turns := by
    intro hc
    simp [turnsOf, hc]
  cases hx with
  | found _ =>
    by_cases hcall : s.begun = call
    · rw [hown (congrArg some hcall)]
      obtain ⟨hnone, hcompiling⟩ := h.of_begun_le (Nat.le_of_eq hcall)
      rw [hnone, ← hcall]
      exact .found (Nat.lt_succ_self _) (hcall ▸ hcompiling)
    · rw [hother fun hc => hcall (Option.some.inj hc)]
      exact h.frame (by simp only; omega) rfl
  | missed _ _ =>
    by_cases hcall : s.begun = call
    · rw [hown (congrArg some hcall)]
      obtain ⟨hnone, -⟩ := h.of_begun_le (Nat.le_of_eq hcall)
      rw [hnone, ← hcall]
      exact .compiling (Nat.lt_succ_self _) (Function.update_self ..)
    · rw [hother fun hc => hcall (Option.some.inj hc)]
      exact h.frame (by simp only; omega) (Function.update_of_ne (Ne.symm hcall) ..)
  | @entered c _ _ _ _ _ hc _ =>
    by_cases hcall : c = call
    · subst hcall
      obtain ⟨hbegun, hone⟩ := h.of_compiling hc
      rw [hown rfl, hone]
      exact .entered hbegun (Function.update_self ..)
    · rw [hother fun hc => hcall (Option.some.inj hc)]
      exact h.frame Iff.rfl (Function.update_of_ne (Ne.symm hcall) ..)
  | @failed c _ hc =>
    by_cases hcall : c = call
    · subst hcall
      obtain ⟨hbegun, hone⟩ := h.of_compiling hc
      rw [hown rfl, hone]
      exact .failed hbegun (Function.update_self ..)
    · rw [hother fun hc => hcall (Option.some.inj hc)]
      exact h.frame Iff.rfl (Function.update_of_ne (Ne.symm hcall) ..)
  | cleared =>
    rw [hother nofun]
    exact h.frame Iff.rfl rfl

/-- Every call takes its turns in order, and ends with a return or with an error. -/
theorem Path.progress {s : Shared} {turns : List Turn} (h : Path {} turns s) (call : Nat) :
    Progress s call (turnsOf call turns) := by
  induction h with
  | refl => exact .unborn (Nat.zero_le _) rfl
  | step _ hx ih => exact ih.step hx

/-- A call that fails missed its entry before, and that was all it did. -/
theorem Progress.of_failed {s : Shared} {call : Nat} {fp : Bytes} {turns : List Turn}
    (h : Progress s call turns) (hmem : .failed call fp ∈ turns) :
    turns = [.failed call fp, .missed call fp] := by
  cases h <;> simp_all

/-- A call that enters a query missed its entry before. -/
theorem Progress.of_entered {s : Shared} {call : Nat} {fp : Bytes} {made q : Compiled}
    {turns : List Turn} (h : Progress s call turns) (hmem : .entered call fp made q ∈ turns) :
    turns = [.entered call fp made q, .missed call fp] := by
  cases h <;> simp_all

/-- The turns of a call are those turns that are its own. -/
theorem mem_turnsOf {call : Nat} {turns : List Turn} {x : Turn} :
    x ∈ turnsOf call turns ↔ x ∈ turns ∧ x.call? = some call := by
  simp [turnsOf]

/-! ## The counts -/

/-- What calls have returned since the cache was cleared, the latest first. -/
def returns (turns : List Turn) : List (Bytes × Compiled) :=
  (turns.takeWhile (· ≠ .cleared)).filterMap Turn.returned?

/-- **What holds of the cache at any moment.** -/
structure Tally (turns : List Turn) (c : QueryCache) : Prop where
  /-- as many misses are counted as there are entries -/
  misses : c.misses = c.size
  /-- a fingerprint has one entry at most -/
  nodup : (c.entries.map Prod.fst).Nodup
  /-- every call that returned is counted once, as a hit or as a miss -/
  returned : c.hits + c.misses = (returns turns).length
  /-- an entry was made for its fingerprint, by the call that entered it -/
  made : ∀ {fp q}, c.find? fp = some q → ∃ call, .entered call fp q q ∈ turns

/-- Where a turn that returns counts a hit, the cache tallies as before. -/
theorem Tally.hit {turns : List Turn} {c : QueryCache} {x : Turn} {r : Bytes × Compiled}
    (h : Tally turns c) (hx : x.returned? = some r) :
    Tally (x :: turns) { c with hits := c.hits + 1 } where
  misses := h.misses
  nodup := h.nodup
  returned := by
    have hne : x ≠ .cleared := by
      rintro rfl
      cases hx
    have := h.returned
    simp only [returns, List.takeWhile_cons, hne, ne_eq, not_false_eq_true, decide_true, if_true,
      List.filterMap_cons, hx, List.length_cons] at this ⊢
    omega
  made hfind := by
    obtain ⟨call, hmem⟩ := h.made hfind
    exact ⟨call, List.mem_cons_of_mem _ hmem⟩

/-- A turn in which no call returns leaves the tally, if it leaves the cache. -/
theorem Tally.quiet {turns : List Turn} {c : QueryCache} {x : Turn}
    (h : Tally turns c) (hne : x ≠ .cleared) (hx : x.returned? = none) :
    Tally (x :: turns) c where
  misses := h.misses
  nodup := h.nodup
  returned := by simpa [returns, hne, hx] using h.returned
  made hfind := by
    obtain ⟨call, hmem⟩ := h.made hfind
    exact ⟨call, List.mem_cons_of_mem _ hmem⟩

/-- One turn changes the tally as it changes the cache: the two count the same things. -/
theorem Tally.step {s s' : Shared} {turns : List Turn} {x : Turn} (h : Tally turns s.cache)
    (hx : Step s x s') : Tally (x :: turns) s'.cache := by
  cases hx with
  | found hlook =>
    obtain ⟨-, rfl⟩ := lookUp_eq_some.1 hlook
    exact h.hit rfl
  | missed _ hlook =>
    obtain ⟨-, rfl⟩ := lookUp_eq_none.1 hlook
    exact h.quiet nofun rfl
  | @entered call fp made q _ _ _ henter =>
    -- another call may have entered its query in the meantime, which is then a hit
    obtain ⟨-, -, rfl⟩ | ⟨hnone, rfl, -, rfl⟩ := enter_eq.1 henter
    · exact h.hit rfl
    · exact {
        misses := by simpa [size] using h.misses
        nodup := by
          rw [List.map_cons, List.nodup_cons]
          exact ⟨not_mem_keys_of_find?_eq_none hnone, h.nodup⟩
        returned := by
          have := h.returned
          simp only [returns, List.takeWhile_cons, ne_eq, reduceCtorEq, not_false_eq_true,
            decide_true, if_true, List.filterMap_cons, Turn.returned?, List.length_cons] at this ⊢
          omega
        made := by
          intro fp' q' hfind
          rw [find?_entered] at hfind
          split at hfind
          · obtain rfl := Option.some.inj hfind
            subst fp'
            exact ⟨call, List.mem_cons_self⟩
          · obtain ⟨maker, hmem⟩ := h.made hfind
            exact ⟨maker, List.mem_cons_of_mem _ hmem⟩ }
  | failed _ _ => exact h.quiet nofun rfl
  | cleared => exact ⟨rfl, List.nodup_nil, rfl, nofun⟩

/-- The counts are right at any moment. -/
theorem Path.tally {s : Shared} {turns : List Turn} (h : Path {} turns s) :
    Tally turns s.cache := by
  induction h with
  | refl => exact ⟨rfl, List.nodup_nil, rfl, nofun⟩
  | step _ hx ih => exact ih.step hx

/-! ## What stands until the cache is cleared -/

/-- What a call returns stands in the cache. -/
theorem Step.find?_of_returned {s s' : Shared} {x : Turn} {fp : Bytes} {q : Compiled}
    (h : Step s x s') (hx : x.returned? = some (fp, q)) : s'.cache.find? fp = some q := by
  cases h with
  | found hlook =>
    obtain ⟨rfl, rfl⟩ := by simpa [Turn.returned?] using hx
    obtain ⟨hfind, rfl⟩ := lookUp_eq_some.1 hlook
    exact hfind
  | entered _ _ _ henter =>
    obtain ⟨rfl, rfl⟩ := by simpa [Turn.returned?] using hx
    obtain ⟨hfind, -, rfl⟩ | ⟨-, rfl, -, rfl⟩ := enter_eq.1 henter
    · exact hfind
    · rw [find?_entered, if_pos rfl]
  | missed _ _ => cases hx
  | failed _ _ => cases hx
  | cleared => cases hx

/-- Only clearing the cache removes or replaces an entry. -/
theorem Step.find?_of_find? {s s' : Shared} {x : Turn} {fp : Bytes} {q : Compiled}
    (h : Step s x s') (hx : x ≠ .cleared) (hfind : s.cache.find? fp = some q) :
    s'.cache.find? fp = some q := by
  cases h with
  | found hlook =>
    obtain ⟨-, rfl⟩ := lookUp_eq_some.1 hlook
    exact hfind
  | missed _ hlook =>
    obtain ⟨-, rfl⟩ := lookUp_eq_none.1 hlook
    exact hfind
  | entered _ _ _ henter =>
    obtain ⟨-, -, rfl⟩ | ⟨hnone, rfl, -, rfl⟩ := enter_eq.1 henter
    · exact hfind
    · rw [find?_entered]
      split
      · subst fp
        rw [hnone] at hfind
        cases hfind
      · exact hfind
  | failed _ _ => exact hfind
  | cleared => exact absurd rfl hx

/-- An entry stands until the cache is cleared. -/
theorem Path.find?_of_find? {s t : Shared} {turns : List Turn} {fp : Bytes} {q : Compiled}
    (h : Path s turns t) (hclear : .cleared ∉ turns) (hfind : s.cache.find? fp = some q) :
    t.cache.find? fp = some q := by
  induction h with
  | refl => exact hfind
  | step _ hx ih =>
    rw [List.mem_cons, not_or] at hclear
    exact hx.find?_of_find? (Ne.symm hclear.1) (ih hclear.2)

/-! ## What callers can rely on -/

/-- **What holds of a shared cache** that turns have taken from its beginning to `s`. -/
structure Accounts (turns : List Turn) (s : Shared) : Prop where
  /-- as many misses are counted as there are entries, of which no two have one fingerprint -/
  misses_eq_size : s.cache.misses = s.cache.size ∧ (s.cache.entries.map Prod.fst).Nodup
  /-- every call that has returned since the cache was cleared counts once -/
  hits_add_misses : s.cache.hits + s.cache.misses = (returns turns).length
  /-- no turn of a call that fails changes the cache, from whatever state it is taken -/
  failed_eq : ∀ {call fp}, .failed call fp ∈ turns → ∀ {x t t'}, x ∈ turns →
    x.call? = some call → Step t x t' → t'.cache = t.cache
  /-- what is returned for a fingerprint was compiled for it, by a call that had missed it -/
  returned_made : ∀ {newer x older fp q}, turns = newer ++ x :: older →
    x.returned? = some (fp, q) →
    ∃ call, .entered call fp q q ∈ x :: older ∧ .missed call fp ∈ older
  /-- what is returned for a fingerprint stays the same until the cache is cleared -/
  returned_eq : ∀ {newer y between x older fp q q'},
    turns = newer ++ y :: between ++ x :: older → .cleared ∉ between →
    x.returned? = some (fp, q) → y.returned? = some (fp, q') → q = q'

/-- **The accounts of a shared cache are right at any moment**, whatever calls use it and in
whatever order they take their turns. Every turn keeps the tally of the cache (`Tally.step`) and the
progress of its call, and the accounts are read off these two. -/
theorem Path.accounts {turns : List Turn} {s : Shared} (h : Path {} turns s) :
    Accounts turns s where
  misses_eq_size := ⟨h.tally.misses, h.tally.nodup⟩
  hits_add_misses := h.tally.returned
  -- a call that fails took two turns, and neither of them changes the cache
  failed_eq := by
    intro call fp hfailed x t t' hx hcall hstep
    have hturns : turnsOf call turns = [.failed call fp, .missed call fp] :=
      (h.progress call).of_failed (mem_turnsOf.2 ⟨hfailed, rfl⟩)
    have hmem : x ∈ turnsOf call turns := mem_turnsOf.2 ⟨hx, hcall⟩
    rw [hturns, List.mem_pair] at hmem
    obtain rfl | rfl := hmem
    · cases hstep
      rfl
    · cases hstep with
      | missed _ hlook => exact (lookUp_eq_none.1 hlook).2
  returned_made := by
    intro newer x older fp q hturns hx
    subst hturns
    obtain ⟨t, t', hold, hstep, hnow, -⟩ := h.split_at
    -- what is returned is an entry, which some call made after it had missed
    obtain ⟨call, hmade⟩ := hnow.tally.made (hstep.find?_of_returned hx)
    have hcalls := (hnow.progress call).of_entered (mem_turnsOf.2 ⟨hmade, rfl⟩)
    have hmissed : .missed call fp ∈ turnsOf call (x :: older) := by
      rw [hcalls]
      exact List.mem_cons_of_mem _ List.mem_cons_self
    obtain hx' | hmem := List.mem_cons.1 (mem_turnsOf.1 hmissed).1
    · rw [← hx'] at hx
      cases hx
    · exact ⟨call, hmade, hmem⟩
  returned_eq := by
    intro newer y between x older fp q q' hturns hclear hx hy
    subst hturns
    obtain ⟨t, t', -, hstep, -, hrest⟩ := h.split_at
    obtain ⟨u, u', hbetween, hstep', -, -⟩ := hrest.split_at
    have hyclear : y ≠ .cleared := by
      rintro rfl
      cases hy
    -- between two returns nothing is cleared, so the entry of the first one stands
    have hstands : u'.cache.find? fp = some q :=
      hstep'.find?_of_find? hyclear (hbetween.find?_of_find? hclear (hstep.find?_of_returned hx))
    rw [hstep'.find?_of_returned hy] at hstands
    exact (Option.some.inj hstands).symm

/-- Two calls miss one fingerprint and the second one enters its query first. A third call fails.
A fourth enters its query after the cache was cleared, and a fifth finds it. -/
def race (made : Nat → Compiled) : List Turn :=
  [.found 4 (ascii "all") (made 3), .entered 3 (ascii "all") (made 3) (made 3), .cleared,
    .missed 3 (ascii "all"), .entered 0 (ascii "one") (made 0) (made 1), .failed 2 (ascii "few"),
    .missed 2 (ascii "few"), .entered 1 (ascii "one") (made 1) (made 1),
    .missed 1 (ascii "one"), .missed 0 (ascii "one")]

/-- The race is a path, whatever queries the calls make, and leaves one entry, one hit and one
miss. -/
theorem path_race (made : Nat → Compiled) :
    ∃ s, Path {} (race made) s ∧ s.cache = ⟨[(ascii "all", made 3)], 1, 1⟩ := by
  have hmissed : Path {} [.missed 1 (ascii "one"), .missed 0 (ascii "one")] _ :=
    .step (.step .refl (.missed _ rfl)) (.missed _ rfl)
  have hentered := hmissed.step (.entered 1 (made 1) rfl rfl)
  have hfailed := (hentered.step (.missed (ascii "few") rfl)).step (.failed 2 rfl)
  have hlost := hfailed.step (.entered 0 (made 0) rfl rfl)
  have hcleared := (hlost.step (.missed (ascii "all") rfl)).step .cleared
  exact ⟨_, (hcleared.step (.entered 3 (made 3) rfl rfl)).step (.found rfl), rfl⟩

/-- The query of a call, told from those of others by its parameter. -/
def numbered (call : Nat) : Compiled := ⟨⟨ascii "SELECT ?", [.integer (.ofNat call)]⟩, ascii "one"⟩

/-- Where each call makes a query of its own, the race is accounted for: it has one hit and one miss
since the cache was cleared. -/
theorem accounts_race :
    ∃ s, Path {} (race numbered) s ∧ s.cache.hits = 1 ∧ s.cache.misses = 1 ∧
      Accounts (race numbered) s := by
  obtain ⟨s, hpath, hcache⟩ := path_race numbered
  exact ⟨s, hpath, by rw [hcache], by rw [hcache], hpath.accounts⟩

/-! ## Getting a query takes turns -/

section

variable {σ ε α β : Type}

/-- The calls that are under way in one state are under way in the other. -/
def Keeps (s t : Shared) : Prop :=
  s.begun ≤ t.begun ∧ ∀ call < s.begun, t.compiling call = s.compiling call

theorem Keeps.refl (s : Shared) : Keeps s s := ⟨Nat.le_refl _, fun _ _ => rfl⟩

theorem Keeps.trans {s t u : Shared} (h : Keeps s t) (h' : Keeps t u) : Keeps s u :=
  ⟨Nat.le_trans h.1 h'.1, fun call hcall =>
    (h'.2 call (Nat.lt_of_lt_of_le hcall h.1)).trans (h.2 call hcall)⟩

/-- An action takes turns: what it does to the cache is a path of turns, of its own or of others,
that ends with the calls it found under way. -/
def TakesTurns (a : Action (QueryCache × σ) ε α) : Prop :=
  ∀ (s : Shared) (x : σ), ∃ turns t, Path s turns t ∧ Keeps s t ∧
    (a.outcome (s.cache, x)).2.1 = t.cache

theorem takesTurns_pure (y : α) : TakesTurns (pure y : Action (QueryCache × σ) ε α) :=
  fun s _ => ⟨[], s, .refl, .refl s, rfl⟩

theorem takesTurns_throw (e : ε) : TakesTurns (throw e : Action (QueryCache × σ) ε α) :=
  fun s _ => ⟨[], s, .refl, .refl s, rfl⟩

/-- Clearing the cache, as an action. -/
def clearing : Action (QueryCache × σ) ε Unit :=
  Action.change fun p => ((), p.1.clear, p.2)

theorem takesTurns_clearing : TakesTurns (clearing : Action (QueryCache × σ) ε Unit) :=
  fun _ _ => ⟨[.cleared], _, .step .refl .cleared, ⟨Nat.le_refl _, fun _ _ => rfl⟩, rfl⟩

/-- What is done in turns may be followed by more that is. -/
theorem TakesTurns.bind {a : Action (QueryCache × σ) ε α} {f : α → Action (QueryCache × σ) ε β}
    (ha : TakesTurns a) (hf : ∀ y, TakesTurns (f y)) : TakesTurns (a >>= f) := by
  intro s x
  obtain ⟨turns, t, hpath, hkeeps, hcache⟩ := ha s x
  rw [Action.outcome_bind]
  rcases hout : a.outcome (s.cache, x) with ⟨_ | y, c, x'⟩
  · rw [hout] at hcache
    exact ⟨turns, t, hpath, hkeeps, hcache⟩
  · rw [hout] at hcache
    obtain rfl : c = t.cache := hcache
    obtain ⟨turns', u, hpath', hkeeps', hcache'⟩ := hf y t x'
    exact ⟨turns' ++ turns, u, hpath.trans hpath', hkeeps.trans hkeeps', hcache'⟩

/-- What `getOrCompile` comes to from a state. -/
theorem outcome_getOrCompile (fp : Bytes) (compile : Action (QueryCache × σ) ε Compiled)
    (c : QueryCache) (x : σ) :
    (getOrCompile fp compile).outcome (c, x) =
      match c.lookUp fp with
      | (some q, c) => (.ok (q, true), c, x)
      | (none, c) =>
        match compile.outcome (c, x) with
        | (.ok made, c, x) => (.ok (c.enter fp made).1, (c.enter fp made).2, x)
        | (.error e, c, x) => (.error e, c, x) := by
  rw [getOrCompile]
  simp only [Action.outcome_bind, Action.outcome_get, Action.outcome_set]
  rcases c.lookUp fp with ⟨_ | q, c⟩
  · simp only [Action.outcome_bind, Action.outcome_get, Action.outcome_set]
    rcases compile.outcome (c, x) with ⟨_ | made, c, x⟩ <;> rfl
  · rfl

/-- The last turn of a call gives its result, or fails with it. -/
def Turn.Ends (call : Nat) (fp : Bytes) (r : Except ε (Compiled × Bool)) (x : Turn) : Prop :=
  x.call? = some call ∧
    match r with
    | .ok (q, _) => x.returned? = some (fp, q)
    | .error _ => x = .failed call fp

/-- **Getting a query takes turns**, whatever turns its compile function takes. The call that it
begins takes the last one, which returns what `getOrCompile` gives or fails as it does. -/
theorem path_getOrCompile (fp : Bytes) {compile : Action (QueryCache × σ) ε Compiled}
    (h : TakesTurns compile) (s : Shared) (x : σ) :
    ∃ last turns t, Path s (last :: turns) t ∧ Keeps s t ∧
      ((getOrCompile fp compile).outcome (s.cache, x)).2.1 = t.cache ∧
      last.Ends s.begun fp ((getOrCompile fp compile).outcome (s.cache, x)).1 := by
  rw [outcome_getOrCompile]
  rcases hlook : s.cache.lookUp fp with ⟨_ | q, c⟩
  · -- no entry: the call misses, its compile function takes turns, and the call ends
    obtain ⟨-, rfl⟩ := lookUp_eq_none.1 hlook
    set missed : Shared := ⟨s.cache, s.begun + 1, Function.update s.compiling s.begun (some fp)⟩
    obtain ⟨turns, t, hpath, hkeeps, hcache⟩ := h missed x
    have hrun : t.compiling s.begun = some fp :=
      (hkeeps.2 _ (Nat.lt_succ_self _)).trans (Function.update_self ..)
    have hbegun : s.begun < t.begun := hkeeps.1
    have hends : ∀ {call}, call < s.begun →
        Function.update t.compiling s.begun none call = s.compiling call := by
      intro call hcall
      rw [Function.update_of_ne (Nat.ne_of_lt hcall), hkeeps.2 call (Nat.lt_succ_of_lt hcall)]
      exact Function.update_of_ne (Nat.ne_of_lt hcall) ..
    have hmissed : Path s [.missed s.begun fp] missed := .step .refl (.missed fp hlook)
    dsimp only
    rcases hout : compile.outcome (s.cache, x) with ⟨e | made, c, x'⟩
    · obtain rfl : c = t.cache := by simpa [missed, hout] using hcache
      exact ⟨.failed s.begun fp, turns ++ [.missed s.begun fp], _,
        .step (hmissed.trans hpath) (.failed _ hrun), ⟨Nat.le_of_lt hbegun, fun _ => hends⟩,
        rfl, rfl, rfl⟩
    · obtain rfl : c = t.cache := by simpa [missed, hout] using hcache
      rcases henter : t.cache.enter fp made with ⟨⟨q, hit⟩, c'⟩
      simp only [henter]
      exact ⟨.entered s.begun fp made q, turns ++ [.missed s.begun fp], _,
        .step (hmissed.trans hpath) (.entered _ made hrun henter),
        ⟨Nat.le_of_lt hbegun, fun _ => hends⟩, rfl, rfl, rfl⟩
  · obtain ⟨-, rfl⟩ := lookUp_eq_some.1 hlook
    exact ⟨.found s.begun fp q, [], _, .step .refl (.found hlook),
      ⟨Nat.le_succ _, fun _ _ => rfl⟩, rfl, rfl, rfl⟩

/-- A cached compilation takes its turn at the lookup and at the entry, and leaves the time between
to the compilation. -/
theorem takesTurns_getOrCompile (fp : Bytes) {compile : Action (QueryCache × σ) ε Compiled}
    (h : TakesTurns compile) : TakesTurns (getOrCompile fp compile) := by
  intro s x
  obtain ⟨last, turns, t, hpath, hkeeps, hcache, -⟩ := path_getOrCompile fp h s x
  exact ⟨last :: turns, t, hpath, hkeeps, hcache⟩

/-- A compile function may clear the cache, use it, and fail. -/
example (fp fp' : Bytes) (q : Compiled) (e : ε) :
    TakesTurns (getOrCompile fp (clearing >>= fun _ => getOrCompile fp' (pure q) >>= fun _ =>
      throw e) : Action (QueryCache × σ) ε (Compiled × Bool)) :=
  takesTurns_getOrCompile fp <| takesTurns_clearing.bind fun _ =>
    (takesTurns_getOrCompile fp' (takesTurns_pure q)).bind fun _ => takesTurns_throw e

end

end QueryCache

end SqlPlan
