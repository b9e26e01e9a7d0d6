import Reckoner.Evaluation

/-!
# Evaluating syntax trees

A tree is evaluated from left to right, a node being logged before what is below it.  A
declaration evaluates its first value before it looks whether the name is free, so that the name
cannot be used in its own first value; an assignment looks whether the name is declared before
it evaluates the new value.  Functions are neither called nor defined.

## Main definitions

* `evaluate node` — the evaluation of a syntax tree.
* `Evaluation.GoesWithSteps` — that a property of evaluations goes with their steps.

## Main results

* `evaluate_reference`, `evaluate_declaration`, `evaluate_assignment`, `evaluate_binary` — what a
  node of each shape leaves behind, given what is left by the nodes below it.
* `Node.evaluation_induction` — the induction that goes with evaluation.
* `evaluate_of_goesWithSteps` — what goes with the steps of evaluations holds of every tree.
-/

namespace Reckoner

open Evaluation

/-- The evaluation of a syntax tree. -/
def evaluate : Node → Evaluation Float
  | .number value _ => do
    log (.evaluate .number)
    return value
  | .reference name location => do
    log (.evaluate .reference)
    match ← lookup? name with
    | some value => return value
    | none => fail (.undefinedVariable name location)
  | .declaration name initial location => do
    log (.evaluate .declaration)
    let value ← evaluate initial
    if ← isDeclared name then
      fail (.duplicateDeclaration name location)
    else
      log (.declare name value)
      set name value
      return value
  | .assignment name value location => do
    log (.evaluate .assignment)
    if ← isDeclared name then
      let value ← evaluate value
      log (.assign name value)
      set name value
      return value
    else
      fail (.undefinedVariable name location)
  | .binary op left right _ => do
    log (.evaluate (.binary op))
    let leftValue ← evaluate left
    let rightValue ← evaluate right
    return op.apply leftValue rightValue
  | .call callee _ location => do
    log (.evaluate .call)
    fail (.notEvaluable (.call callee) location)
  | .prototype signature => do
    log (.evaluate .prototype)
    fail (.notEvaluable (.prototype signature.name) signature.location)
  | .function signature _ location => do
    log (.evaluate .function)
    fail (.notEvaluable (.function signature.name) location)

/-! ### What each shape leaves behind -/

variable (env : Environment)

@[simp] theorem evaluate_number (value : Float) (location : Location) :
    evaluate (.number value location) env = ⟨.ok value, env, [.evaluate .number]⟩ := rfl

/-- A name has the value it is bound to, if it is bound. -/
theorem evaluate_reference (name : String) (location : Location) :
    evaluate (.reference name location) env =
      match env.get? name with
      | some value => ⟨.ok value, env, [.evaluate .reference]⟩
      | none => ⟨.error (.undefinedVariable name location), env, [.evaluate .reference]⟩ := by
  rw [evaluate, bind_apply_of_ok (x := log (.evaluate .reference)) rfl,
    bind_apply_of_ok (x := lookup? name) rfl]
  cases env.get? name <;> rfl

/-- A declaration binds its name to its first value, unless there is no such value or the name
is bound by then. -/
theorem evaluate_declaration (name : String) (initial : Node) (location : Location) :
    evaluate (.declaration name initial location) env =
      match evaluate initial env with
      | ⟨.error e, after, events⟩ => ⟨.error e, after, .evaluate .declaration :: events⟩
      | ⟨.ok value, after, events⟩ =>
        if after.contains name then
          ⟨.error (.duplicateDeclaration name location), after, .evaluate .declaration :: events⟩
        else
          ⟨.ok value, after.set name value,
            .evaluate .declaration :: (events ++ [.declare name value])⟩ := by
  rw [evaluate, bind_apply_of_ok (x := log (.evaluate .declaration)) rfl]
  -- the first value comes first, and only then the question whether the name is free
  rcases hinitial : evaluate initial env with ⟨e | value, after, events⟩
  · rw [bind_apply_of_error hinitial]
    rfl
  · rw [bind_apply_of_ok hinitial, bind_apply_of_ok (x := isDeclared name) rfl]
    dsimp only
    cases hbound : after.contains name with
    | true => simp [fail]
    | false =>
      simp only [Bool.false_eq_true, ↓reduceIte]
      rfl

/-- An assignment binds its name to its value, if the name is bound already and there is such a
value. -/
theorem evaluate_assignment (name : String) (value : Node) (location : Location) :
    evaluate (.assignment name value location) env =
      if env.contains name then
        match evaluate value env with
        | ⟨.error e, after, events⟩ => ⟨.error e, after, .evaluate .assignment :: events⟩
        | ⟨.ok x, after, events⟩ =>
          ⟨.ok x, after.set name x, .evaluate .assignment :: (events ++ [.assign name x])⟩
      else
        ⟨.error (.undefinedVariable name location), env, [.evaluate .assignment]⟩ := by
  rw [evaluate, bind_apply_of_ok (x := log (.evaluate .assignment)) rfl,
    bind_apply_of_ok (x := isDeclared name) rfl]
  dsimp only
  cases hbound : env.contains name with
  | false => rfl
  | true =>
    simp only [↓reduceIte]
    rcases hvalue : evaluate value env with ⟨e | x, after, events⟩
    · rw [bind_apply_of_error hvalue]
      rfl
    · rw [bind_apply_of_ok hvalue]
      rfl

/-- Operands are evaluated from left to right. -/
theorem evaluate_binary (op : BinaryOperator) (left right : Node) (location : Location) :
    evaluate (.binary op left right location) env =
      match evaluate left env with
      | ⟨.error e, after, events⟩ => ⟨.error e, after, .evaluate (.binary op) :: events⟩
      | ⟨.ok x, between, events⟩ =>
        match evaluate right between with
        | ⟨.error e, after, more⟩ =>
          ⟨.error e, after, .evaluate (.binary op) :: (events ++ more)⟩
        | ⟨.ok y, after, more⟩ =>
          ⟨.ok (op.apply x y), after, .evaluate (.binary op) :: (events ++ more)⟩ := by
  rw [evaluate, bind_apply_of_ok (x := log (.evaluate (.binary op))) rfl]
  rcases hleft : evaluate left env with ⟨e | x, between, events⟩
  · rw [bind_apply_of_error hleft]
    rfl
  · rw [bind_apply_of_ok hleft]
    dsimp only
    rcases hright : evaluate right between with ⟨e | y, after, more⟩
    · rw [bind_apply_of_error hright]
      rfl
    · rw [bind_apply_of_ok hright]
      simp

@[simp] theorem evaluate_call (callee : String) (args : List Node) (location : Location) :
    evaluate (.call callee args location) env =
      ⟨.error (.notEvaluable (.call callee) location), env, [.evaluate .call]⟩ := rfl

@[simp] theorem evaluate_prototype (signature : Signature) :
    evaluate (.prototype signature) env =
      ⟨.error (.notEvaluable (.prototype signature.name) signature.location), env,
        [.evaluate .prototype]⟩ := rfl

@[simp] theorem evaluate_function (signature : Signature) (body : Node) (location : Location) :
    evaluate (.function signature body location) env =
      ⟨.error (.notEvaluable (.function signature.name) location), env,
        [.evaluate .function]⟩ := rfl

/-! ### What is visited -/

/-- Facts about the evaluation of a tree go by induction on the nodes that it visits; the arguments
of a call and the body of a function are not among them. -/
@[elab_as_elim] theorem Node.evaluation_induction {motive : Node → Prop}
    (number : ∀ value location, motive (.number value location))
    (reference : ∀ name location, motive (.reference name location))
    (declaration : ∀ name initial location, motive initial →
      motive (.declaration name initial location))
    (assignment : ∀ name value location, motive value → motive (.assignment name value location))
    (binary : ∀ op left right location, motive left → motive right →
      motive (.binary op left right location))
    (call : ∀ callee args location, motive (.call callee args location))
    (prototype : ∀ signature, motive (.prototype signature))
    (function : ∀ signature body location, motive (.function signature body location))
    (node : Node) : motive node :=
  evaluate.induct motive number reference declaration assignment binary call prototype function node

/-- A property of evaluations goes with their steps: it holds of each step but a warning, and of
evaluations one after the other if it holds of them. -/
structure Evaluation.GoesWithSteps (P : ∀ {α : Type}, Evaluation α → Prop) : Prop where
  pure : ∀ {α : Type} (a : α), P (pure a)
  bind : ∀ {α β : Type} {x : Evaluation α} {f : α → Evaluation β},
    P x → (∀ a, P (f a)) → P (x >>= f)
  log : ∀ event : Event, event.level ≠ .warn → P (log event)
  fail : ∀ {α : Type} (e : EvalError), P (fail e : Evaluation α)
  lookup? : ∀ name, P (lookup? name)
  isDeclared : ∀ name, P (isDeclared name)
  set : ∀ name value, P (set name value)

/-- What goes with the steps of evaluations holds of the evaluation of every tree. -/
theorem evaluate_of_goesWithSteps {P : ∀ {α : Type}, Evaluation α → Prop}
    (h : GoesWithSteps P) (node : Node) : P (evaluate node) := by
  have hevaluate : ∀ shape, P (log (.evaluate shape)) := fun _ => h.log _ nofun
  induction node using Node.evaluation_induction with
  | number value l =>
    rw [evaluate]
    exact h.bind (hevaluate _) fun _ => h.pure value
  | reference name l =>
    rw [evaluate]
    refine h.bind (hevaluate _) fun _ => h.bind (h.lookup? name) fun found => ?_
    cases found with
    | none => exact h.fail _
    | some value => exact h.pure value
  | declaration name initial l ih =>
    rw [evaluate]
    refine h.bind (hevaluate _) fun _ => h.bind ih fun value => ?_
    refine h.bind (h.isDeclared name) fun bound => ?_
    cases bound with
    | true => exact h.fail _
    | false =>
      exact h.bind (h.log _ nofun) fun _ => h.bind (h.set name value) fun _ => h.pure value
  | assignment name target l ih =>
    rw [evaluate]
    refine h.bind (hevaluate _) fun _ => h.bind (h.isDeclared name) fun bound => ?_
    cases bound with
    | false => exact h.fail _
    | true =>
      exact h.bind ih fun value => h.bind (h.log _ nofun) fun _ =>
        h.bind (h.set name value) fun _ => h.pure value
  | binary op left right l ihleft ihright =>
    rw [evaluate]
    exact h.bind (hevaluate _) fun _ => h.bind ihleft fun _ => h.bind ihright fun _ => h.pure _
  | call callee args l =>
    rw [evaluate]
    exact h.bind (hevaluate _) fun _ => h.fail _
  | prototype signature =>
    rw [evaluate]
    exact h.bind (hevaluate _) fun _ => h.fail _
  | function signature body l =>
    rw [evaluate]
    exact h.bind (hevaluate _) fun _ => h.fail _

end Reckoner
