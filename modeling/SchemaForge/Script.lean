/-!
# Scripts

A script is a computation that makes calls to the world around it and goes on with the replies. What
a call does is left open: `run` performs calls on a state, and `runIn` performs them in any monad. A
script can also be performed one call at a time, which is how several scripts are interleaved.
-/

namespace SchemaForge

/-- A computation that makes calls; `C β` are the calls that are replied to with a `β`. -/
inductive Script (C : Type → Type) (α : Type) : Type 1
  | done (a : α)
  | call {β : Type} (c : C β) (next : β → Script C α)

namespace Script

/-- A script and then another one, which is given the result. -/
def bind (s : Script C α) (f : α → Script C β) : Script C β :=
  match s with
  | done a => f a
  | call c next => call c fun reply => (next reply).bind f

instance : Monad (Script C) where
  pure := done
  bind := bind

/-- The script of a single call. -/
def ask (c : C α) : Script C α := call c done

/-- Performing the calls on a state, one after the other. -/
def run (perform : {β : Type} → C β → σ → β × σ) : Script C α → σ → α × σ
  | done a, s => (a, s)
  | call c next, s =>
    let (reply, s) := perform c s
    (next reply).run perform s

/-- Performing the calls in a monad. -/
def runIn [Monad m] (perform : {β : Type} → C β → m β) : Script C α → m α
  | done a => pure a
  | call c next => do (next (← perform c)).runIn perform

/-- Each call replaced by a script of other calls. -/
def expand (meaning : {β : Type} → C β → Script D β) : Script C α → Script D α
  | done a => done a
  | call c next => (meaning c).bind fun reply => (next reply).expand meaning

@[simp]
theorem bind_done (a : α) (f : α → Script C β) : (done a).bind f = f a := rfl

@[simp]
theorem bind_call {γ : Type} (c : C γ) (next : γ → Script C α) (f : α → Script C β) :
    (call c next).bind f = call c fun reply => (next reply).bind f := rfl

@[simp]
theorem run_done (perform : {β : Type} → C β → σ → β × σ) (a : α) (s : σ) :
    (done a : Script C α).run perform s = (a, s) := rfl

theorem run_bind (perform : {β : Type} → C β → σ → β × σ) (p : Script C α)
    (f : α → Script C β) (s : σ) :
    (p.bind f).run perform s = (f (p.run perform s).1).run perform (p.run perform s).2 := by
  induction p generalizing s with
  | done a => rfl
  | call c next ih => exact ih _ _

end Script

end SchemaForge
