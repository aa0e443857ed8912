import SchemaForge.Script

/-!
# Scripts that can fail

The outcome of a script that can fail is a result or an error, with the state that its calls leave
behind. After an error no more calls are made.
-/

namespace SchemaForge.Script

variable {C : Type → Type} {σ ε α β : Type}

theorem run_ask_bind (perform : {β : Type} → C β → σ → β × σ) (c : C α) (f : α → Script C β)
    (st : σ) :
    (ask c >>= f).run perform st = (f (perform c st).1).run perform (perform c st).2 :=
  rfl

/-- The result or the error of a script, and the state after it. -/
def outcome (perform : {β : Type} → C β → σ → β × σ) (s : ExceptT ε (Script C) α) (st : σ) :
    Except ε α × σ :=
  s.run.run perform st

section Outcome

variable (perform : {β : Type} → C β → σ → β × σ) (st : σ)

@[simp]
theorem outcome_pure (a : α) :
    outcome perform (pure a : ExceptT ε (Script C) α) st = (.ok a, st) := rfl

@[simp]
theorem outcome_throw (e : ε) :
    outcome perform (throw e : ExceptT ε (Script C) α) st = (.error e, st) := rfl

/-- A call of which the reply is no failure. -/
@[simp]
theorem outcome_lift (c : C α) :
    outcome perform (monadLift (Script.ask c) : ExceptT ε (Script C) α) st =
      (.ok (perform c st).1, (perform c st).2) := rfl

/-- A demand that fails where it is not met. -/
theorem outcome_demand (c : Bool) (e : ε) :
    outcome perform (if !c then throw e else pure () : ExceptT ε (Script C) Unit) st =
      (if c then .ok () else .error e, st) := by
  cases c <;> rfl

/-- A script that cannot fail, as a part of one that can. -/
theorem outcome_monadLift (s : Script C α) :
    outcome perform (monadLift s : ExceptT ε (Script C) α) st =
      (.ok (s.run perform st).1, (s.run perform st).2) := by
  show Script.run perform (Script.bind s _) st = _
  rw [run_bind]
  rfl

theorem outcome_bind (s : ExceptT ε (Script C) α) (f : α → ExceptT ε (Script C) β) :
    outcome perform (s >>= f) st =
      match outcome perform s st with
      | (.ok a, st') => outcome perform (f a) st'
      | (.error e, st') => (.error e, st') := by
  show Script.run perform (Script.bind s.run _) st = _
  rw [run_bind]
  rcases h : Script.run perform s.run st with ⟨e | a, st'⟩
  · simp only [outcome, h]
    rfl
  · simp only [outcome, h]
    rfl

/-- A script that succeeds did so in all of its parts. -/
theorem outcome_bind_eq_ok_iff {s : ExceptT ε (Script C) α} {f : α → ExceptT ε (Script C) β}
    {st st' : σ} {b : β} :
    outcome perform (s >>= f) st = (.ok b, st') ↔
      ∃ a st₁, outcome perform s st = (.ok a, st₁) ∧ outcome perform (f a) st₁ = (.ok b, st') := by
  rw [outcome_bind]
  rcases outcome perform s st with ⟨e | a, st₁⟩
  · constructor
    · intro h
      cases h
    · rintro ⟨a, st₂, h, -⟩
      cases h
  · constructor
    · intro h
      exact ⟨a, st₁, rfl, h⟩
    · rintro ⟨a', st₂, h, hf⟩
      cases h
      exact hf

/-- What comes after a part that succeeds. -/
theorem outcome_bind_of_eq_ok {s : ExceptT ε (Script C) α} {f : α → ExceptT ε (Script C) β}
    {st st₁ : σ} {a : α} (h : outcome perform s st = (.ok a, st₁)) :
    outcome perform (s >>= f) st = outcome perform (f a) st₁ := by
  rw [outcome_bind, h]

end Outcome

end SchemaForge.Script
