import Reckoner.Evaluation.Environment
import Reckoner.Evaluation.EvalError
import Reckoner.Event

/-!
# Evaluations

An evaluation starts in an environment and ends with a value or an error.  Either way it leaves
an environment and the events on the way behind: what was bound before an error stays bound.

## Main definitions

* `Evaluation.Result` — what an evaluation ends with.
* `Evaluation` — a computation that reads and changes an environment, logs, and may fail.
* `Evaluation.log`, `Evaluation.fail` — the steps that leave the environment alone.
* `Evaluation.lookup?`, `Evaluation.bind` — the steps that read and change it.

## Main results

* `LawfulMonad Evaluation` — evaluations may be put together in any grouping.
-/

namespace Reckoner

/-- What an evaluation ends with. -/
structure Evaluation.Result (α : Type) where
  /-- The value, or why there is none. -/
  outcome : Except EvalError α
  /-- The environment that is left. -/
  environment : Environment
  /-- What happened, in order. -/
  events : List Event

/-- A computation that reads and changes an environment, logs, and may fail. -/
def Evaluation (α : Type) : Type := Environment → Evaluation.Result α

namespace Evaluation

variable {α β : Type}

/-- Goes on with what follows, unless there is no value to go on with. -/
def andThen (x : Evaluation α) (f : α → Evaluation β) : Evaluation β := fun env =>
  match x env with
  | ⟨.ok a, env, events⟩ =>
    let result := f a env
    { result with events := events ++ result.events }
  | ⟨.error e, env, events⟩ => ⟨.error e, env, events⟩

instance : Monad Evaluation where
  pure a := fun env => ⟨.ok a, env, []⟩
  bind := andThen

/-- Notes that something has happened. -/
def log (event : Event) : Evaluation Unit := fun env => ⟨.ok (), env, [event]⟩

/-- Fails. -/
def fail (e : EvalError) : Evaluation α := fun env => ⟨.error e, env, []⟩

/-- The value of a name, if it is declared. -/
def lookup? (name : String) : Evaluation (Option Float) := fun env => ⟨.ok (env.get? name), env, []⟩

/-- Whether a name is declared. -/
def isDeclared (name : String) : Evaluation Bool := fun env => ⟨.ok (env.contains name), env, []⟩

/-- Gives a name a value. -/
def set (name : String) (value : Float) : Evaluation Unit := fun env =>
  ⟨.ok (), env.set name value, []⟩

/-! ### Putting evaluations together -/

@[simp] theorem pure_apply (a : α) (env : Environment) :
    (pure a : Evaluation α) env = ⟨.ok a, env, []⟩ := rfl

/-- With a value the evaluation goes on in the environment that is left. -/
theorem bind_apply_of_ok {x : Evaluation α} {f : α → Evaluation β} {env env₁ : Environment}
    {a : α} {events : List Event} (h : x env = ⟨.ok a, env₁, events⟩) :
    (x >>= f) env =
      ⟨(f a env₁).outcome, (f a env₁).environment, events ++ (f a env₁).events⟩ := by
  simp [bind, andThen, h]

/-- Without a value the evaluation ends. -/
theorem bind_apply_of_error {x : Evaluation α} {f : α → Evaluation β} {env env₁ : Environment}
    {e : EvalError} {events : List Event} (h : x env = ⟨.error e, env₁, events⟩) :
    (x >>= f) env = ⟨.error e, env₁, events⟩ := by
  simp [bind, andThen, h]

/-- Evaluations may be put together in any grouping. -/
instance : LawfulMonad Evaluation := LawfulMonad.mk' Evaluation
  (fun x => by
    funext env
    rcases hx : x env with ⟨_ | a, env₁, events⟩
    · exact bind_apply_of_error hx
    · exact (bind_apply_of_ok hx).trans (by simp [Function.comp]))
  (fun _ _ => rfl)
  (fun x f g => by
    funext env
    rcases hx : x env with ⟨_ | a, env₁, events⟩
    · rw [bind_apply_of_error hx, bind_apply_of_error (bind_apply_of_error hx)]
    · rw [bind_apply_of_ok hx]
      rcases hf : f a env₁ with ⟨_ | b, env₂, more⟩
      · rw [bind_apply_of_error hf, bind_apply_of_error (by rw [bind_apply_of_ok hx, hf])]
      · rw [bind_apply_of_ok hf, bind_apply_of_ok (by rw [bind_apply_of_ok hx, hf])]
        simp [List.append_assoc])

end Evaluation

end Reckoner
