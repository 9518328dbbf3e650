import Mathlib.Data.List.Forall2

/-!
# When a sequence of steps succeeds

Emission and the building of plans run in `Except`. A sequence of steps succeeds when each step
does; these lemmas take such a success apart. They are the only facts about the monad that the
other modules use. `Except.Alike` relates two sequences that run side by side.
-/

namespace SqlPlan

variable {ε α β : Type}

theorem Except.pure_eq_ok {a b : α} : (pure a : Except ε α) = .ok b ↔ b = a :=
  ⟨fun h => (Except.ok.inj h).symm, fun h => congrArg Except.ok h.symm⟩

/-- A step and what follows it succeed when the step does and what follows its result does. -/
theorem Except.bind_eq_ok {x : Except ε α} {f : α → Except ε β} {b : β} :
    x >>= f = .ok b ↔ ∃ a, x = .ok a ∧ f a = .ok b := by
  constructor
  · intro h
    cases x with
    | error e => cases h
    | ok a => exact ⟨a, rfl, h⟩
  · rintro ⟨a, rfl, h⟩
    exact h

/-- A step and what follows it fail when the step does or what follows its result does. -/
theorem Except.bind_eq_error {x : Except ε α} {f : α → Except ε β} {e : ε} :
    x >>= f = .error e ↔ x = .error e ∨ ∃ a, x = .ok a ∧ f a = .error e := by
  constructor
  · intro h
    cases x with
    | error e' => exact Or.inl (congrArg Except.error (Except.error.inj h))
    | ok a => exact Or.inr ⟨a, rfl, h⟩
  · rintro (rfl | ⟨a, rfl, h⟩)
    · rfl
    · exact h

/-- A change of the result leaves success as it is. -/
theorem Except.map_eq_ok {g : α → β} {x : Except ε α} {b : β} :
    g <$> x = .ok b ↔ ∃ a, x = .ok a ∧ b = g a := by
  constructor
  · intro h
    cases x with
    | error e => cases h
    | ok a => exact ⟨a, rfl, (Except.ok.inj h).symm⟩
  · rintro ⟨a, rfl, rfl⟩
    rfl

/-- One step whose result is wrapped up. -/
theorem Except.bind_pure_eq_ok {γ : Type} {x : Except ε α} {g : α → γ} {c : γ} :
    (x >>= fun a => pure (g a)) = .ok c ↔ ∃ a, x = .ok a ∧ c = g a := by
  rw [Except.bind_eq_ok]
  exact exists_congr fun a => and_congr_right fun _ => Except.pure_eq_ok

/-- Two independent steps whose results are put together. -/
theorem Except.bind₂_pure_eq_ok {γ : Type} {x : Except ε α} {y : Except ε β} {g : α → β → γ}
    {c : γ} :
    (x >>= fun a => y >>= fun b => pure (g a b)) = .ok c ↔
      ∃ a b, x = .ok a ∧ y = .ok b ∧ c = g a b := by
  rw [Except.bind_eq_ok]
  constructor
  · rintro ⟨a, ha, h⟩
    obtain ⟨b, hb, rfl⟩ := Except.bind_pure_eq_ok.1 h
    exact ⟨a, b, ha, hb, rfl⟩
  · rintro ⟨a, b, ha, hb, rfl⟩
    exact ⟨a, ha, Except.bind_pure_eq_ok.2 ⟨b, hb, rfl⟩⟩

/-- A step on each of a list succeeds when it does on each member, with the results in order. -/
theorem Except.mapM_eq_ok {f : α → Except ε β} {as : List α} {bs : List β} :
    as.mapM f = .ok bs ↔ List.Forall₂ (fun a b => f a = .ok b) as bs := by
  induction as generalizing bs with
  | nil =>
    rw [List.mapM_nil, Except.pure_eq_ok, List.forall₂_nil_left_iff]
  | cons a as ih =>
    rw [List.mapM_cons, Except.bind_eq_ok]
    constructor
    · rintro ⟨b, hb, h⟩
      obtain ⟨cs, hcs, h⟩ := Except.bind_eq_ok.1 h
      obtain rfl := Except.pure_eq_ok.1 h
      exact List.Forall₂.cons hb (ih.1 hcs)
    · intro h
      obtain ⟨b, cs, hb, hcs, rfl⟩ := List.forall₂_cons_left_iff.1 h
      exact ⟨b, hb, Except.bind_eq_ok.2 ⟨cs, ih.2 hcs, rfl⟩⟩

/-- A step that succeeds on each of a list. -/
theorem Except.mapM_eq_map {f : α → Except ε β} {g : α → β} {as : List α}
    (h : ∀ a ∈ as, f a = .ok (g a)) : as.mapM f = .ok (as.map g) := by
  rw [Except.mapM_eq_ok, List.forall₂_map_right_iff, List.forall₂_same]
  exact h

/-- A guard and what follows it succeed when the guard lets pass and what follows does. -/
theorem Except.guard_eq_ok {c : Prop} [Decidable c] {e : ε} {x : Except ε α} {a : α} :
    (if c then .error e else x) = .ok a ↔ ¬c ∧ x = .ok a := by
  by_cases hc : c
  · simp [hc]
  · simp [hc]

theorem Except.map_guard {c : Prop} [Decidable c] {f : α → β} {e : ε} {x : Except ε α} :
    f <$> (if c then .error e else x) = if c then .error e else f <$> x := by
  split <;> rfl

/-- Another account of the error leaves success as it is. -/
theorem Except.mapError_eq_ok {ε' : Type} {g : ε → ε'} {x : Except ε α} {a : α} :
    x.mapError g = .ok a ↔ x = .ok a := by
  cases x <;> simp [Except.mapError]

theorem Except.mapError_eq_error {ε' : Type} {g : ε → ε'} {x : Except ε α} {e : ε'} :
    x.mapError g = .error e ↔ ∃ e', x = .error e' ∧ g e' = e := by
  cases x <;> simp [Except.mapError]

/-! ## Two runs side by side -/

/-- **Two steps come out alike**: they fail with one error, or they succeed with related results. -/
inductive Except.Alike {β' : Type} (R : β → β' → Prop) : Except ε β → Except ε β' → Prop where
  /-- both fail -/
  | error (e : ε) : Alike R (.error e) (.error e)
  /-- both succeed -/
  | ok {b : β} {b' : β'} : R b b' → Alike R (.ok b) (.ok b')

namespace Except.Alike

variable {α' β' γ γ' : Type}

theorem refl {R : β → β → Prop} (hR : ∀ b, R b b) (x : Except ε β) : Alike R x x := by
  cases x with
  | error e => exact .error e
  | ok b => exact .ok (hR b)

/-- Steps that come out alike may be followed by steps that do. -/
theorem bind {R : β → β' → Prop} {S : γ → γ' → Prop} {x : Except ε β} {y : Except ε β'}
    {f : β → Except ε γ} {g : β' → Except ε γ'} (h : Alike R x y)
    (hfg : ∀ b b', R b b' → Alike S (f b) (g b')) : Alike S (x >>= f) (y >>= g) := by
  cases h with
  | error e => exact .error e
  | ok hR => exact hfg _ _ hR

/-- A step on each of a list comes out alike on a list of counterparts. -/
theorem mapM {R : β → β' → Prop} {f : α → Except ε β} {g : α' → Except ε β'} {k : α → α'}
    {as : List α} (h : ∀ a ∈ as, Alike R (f a) (g (k a))) :
    Alike (List.Forall₂ R) (as.mapM f) ((as.map k).mapM g) := by
  induction as with
  | nil => exact .ok .nil
  | cons a as ih =>
    obtain ⟨ha, has⟩ := List.forall_mem_cons.1 h
    rw [List.map_cons, List.mapM_cons, List.mapM_cons]
    refine ha.bind fun b b' hb => ?_
    exact (ih has).bind fun bs bs' hbs => .ok (.cons hb hbs)

end Except.Alike

end SqlPlan
