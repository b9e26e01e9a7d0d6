import Reckoner.Evaluation.Evaluate

/-!
# Trees as lists of actions

A tree asks for a list of actions, one after the other, and each of them works on a stack of values
and on the environment.  To evaluate the tree is to carry out the list up to the first action that
fails: the names bound by then stay bound, and nothing behind it happens.

## Main definitions

* `Action`, `Node.actions` — what there is to do, and what a tree asks for.
* `Machine`, `Action.step` — what actions work on, and what each of them does.
* `Machine.run` — carrying out a list of actions.
* `Machine.FailsAt` — that one of the actions fails, and in what state.

## Main results

* `Machine.comesTo_actions` — whatever is on the stack, the actions of a tree come to its value or
  its error.
* `evaluate_eq_run` — **evaluation is carrying out the actions of the tree from left to right.**
-/

namespace Reckoner

/-! ### Actions -/

/-- Something to do. -/
inductive Action where
  /-- Puts a value on the stack. -/
  | push (value : Float)
  /-- Puts the value of a name on the stack; the name has to be declared. -/
  | load (name : String) (location : Location)
  /-- Fails unless a name is declared. -/
  | checkDeclared (name : String) (location : Location)
  /-- Fails if a name is declared. -/
  | checkUndeclared (name : String) (location : Location)
  /-- Gives a name the value on top of the stack as its new value; the value stays there. -/
  | assign (name : String)
  /-- Gives a name the value on top of the stack as its first value; the value stays there. -/
  | declare (name : String)
  /-- Replaces the two values on top of the stack by what an operator makes of them, the upper one
  being its right operand. -/
  | apply (op : BinaryOperator)
  /-- Fails because a form has no meaning. -/
  | refuse (construct : Construct) (location : Location)

/-- What a tree asks for, in order. -/
def Node.actions : Node → List Action
  | .number value _ => [.push value]
  | .reference name location => [.load name location]
  | .declaration name initial location =>
    initial.actions ++ [.checkUndeclared name location, .declare name]
  | .assignment name value location =>
    .checkDeclared name location :: (value.actions ++ [.assign name])
  | .binary op left right _ => left.actions ++ (right.actions ++ [.apply op])
  | .call callee _ location => [.refuse (.call callee) location]
  | .prototype signature => [.refuse (.prototype signature.name) signature.location]
  | .function signature _ location => [.refuse (.function signature.name) location]

/-! ### What actions do -/

/-- What actions work on. -/
structure Machine where
  /-- The values that are waiting to be used, the latest first. -/
  stack : List Float
  /-- The names that are declared. -/
  environment : Environment
  /-- The bindings made so far. -/
  log : List Event

/-- Why a list of actions is not carried out to its end. -/
inductive Stop where
  /-- An action has failed. -/
  | failure (error : EvalError)
  /-- An action would have needed more values than there are. -/
  | underflow

/-- What an action does, unless it fails. -/
def Action.step : Action → Machine → Except Stop Machine
  | push value, ⟨stack, env, log⟩ => .ok ⟨value :: stack, env, log⟩
  | load name location, ⟨stack, env, log⟩ =>
    match env.get? name with
    | some value => .ok ⟨value :: stack, env, log⟩
    | none => .error (.failure (.undefinedVariable name location))
  | checkDeclared name location, m =>
    if m.environment.contains name then .ok m
    else .error (.failure (.undefinedVariable name location))
  | checkUndeclared name location, m =>
    if m.environment.contains name then .error (.failure (.duplicateDeclaration name location))
    else .ok m
  | assign name, ⟨value :: stack, env, log⟩ =>
    .ok ⟨value :: stack, env.set name value, log ++ [.assign name value]⟩
  | declare name, ⟨value :: stack, env, log⟩ =>
    .ok ⟨value :: stack, env.set name value, log ++ [.declare name value]⟩
  | apply op, ⟨right :: left :: stack, env, log⟩ => .ok ⟨op.apply left right :: stack, env, log⟩
  | refuse construct location, _ => .error (.failure (.notEvaluable construct location))
  | _, _ => .error .underflow

/-- Whether an event is a binding. -/
def Event.isBinding : Event → Bool
  | declare .. | assign .. => true
  | evaluate _ | unreadable _ => false

@[simp] theorem Event.isBinding_evaluate (shape : Shape) : (evaluate shape).isBinding = false := rfl

@[simp] theorem Event.isBinding_declare (name : String) (value : Float) :
    (declare name value).isBinding = true := rfl

@[simp] theorem Event.isBinding_assign (name : String) (value : Float) :
    (assign name value).isBinding = true := rfl

namespace Machine

/-- A machine that has not done anything yet. -/
def start (env : Environment) : Machine := ⟨[], env, []⟩

/-- Carries out actions one after the other, up to the first that cannot be carried out. -/
def run (m : Machine) (actions : List Action) : Except Stop Machine :=
  actions.foldlM (fun m action => action.step m) m

@[simp] theorem run_nil (m : Machine) : m.run [] = .ok m := rfl

theorem run_singleton (m : Machine) (action : Action) : m.run [action] = action.step m := by
  rw [run, List.foldlM_cons]
  cases action.step m <;> rfl

/-- Actions are carried out in parts. -/
theorem run_append {m m' : Machine} {actions : List Action} (h : m.run actions = .ok m')
    (more : List Action) : m.run (actions ++ more) = m'.run more := by
  rw [run] at h ⊢
  rw [List.foldlM_append, h]
  rfl

theorem run_cons {m m' : Machine} {action : Action} (h : action.step m = .ok m')
    (more : List Action) : m.run (action :: more) = m'.run more := by
  have hfirst : m.run [action] = .ok m' := (run_singleton m action).trans h
  exact run_append hfirst more

/-- `m.FailsAt actions env log e`: one of the actions fails with the error `e`, and those in front
of it leave the environment `env` and the log `log`. -/
def FailsAt (m : Machine) (actions : List Action) (env : Environment) (log : List Event)
    (e : EvalError) : Prop :=
  ∃ (before : List Action) (failing : Action) (behind : List Action) (stack : List Float),
    actions = before ++ failing :: behind ∧ m.run before = .ok ⟨stack, env, log⟩ ∧
      failing.step ⟨stack, env, log⟩ = .error (.failure e)

section FailsAt

variable {m m' : Machine} {actions : List Action} {env : Environment} {log : List Event}
  {e : EvalError}

theorem failsAt_head {action : Action} (h : action.step m = .error (.failure e))
    (behind : List Action) : m.FailsAt (action :: behind) m.environment m.log e :=
  ⟨[], action, behind, m.stack, rfl, rfl, h⟩

/-- What stands behind a failure does not matter. -/
theorem FailsAt.append (h : m.FailsAt actions env log e) (more : List Action) :
    m.FailsAt (actions ++ more) env log e := by
  obtain ⟨before, failing, behind, stack, rfl, hrun, hstep⟩ := h
  exact ⟨before, failing, behind ++ more, stack, by simp, hrun, hstep⟩

/-- A failure may come after actions that are carried out. -/
theorem FailsAt.after (h : m'.FailsAt actions env log e) {front : List Action}
    (hfront : m.run front = .ok m') : m.FailsAt (front ++ actions) env log e := by
  obtain ⟨before, failing, behind, stack, rfl, hrun, hstep⟩ := h
  exact ⟨front ++ before, failing, behind, stack, by simp, (run_append hfront before).trans hrun,
    hstep⟩

end FailsAt

/-! ### Trees -/

/-- `m.ComesTo actions result`: carrying out the actions comes to the result of an evaluation.  A
value is left on top of the stack; an error is that of the action that fails.  The environment that
is left, and the bindings among the events, are those of the actions that were carried out. -/
def ComesTo (m : Machine) (actions : List Action) (result : Evaluation.Result Float) : Prop :=
  let log := m.log ++ result.events.filter Event.isBinding
  match result.outcome with
  | .ok value => m.run actions = .ok ⟨value :: m.stack, result.environment, log⟩
  | .error e => m.FailsAt actions result.environment log e

/-- A form without a meaning comes to its refusal. -/
theorem comesTo_refuse (m : Machine) (construct : Construct) (l : Location) (shape : Shape) :
    m.ComesTo [.refuse construct l]
      ⟨.error (.notEvaluable construct l), m.environment, [.evaluate shape]⟩ := by
  have hrefuse : (Action.refuse construct l).step m =
      .error (.failure (.notEvaluable construct l)) := rfl
  simpa [ComesTo] using failsAt_head hrefuse []

/-- The actions of a tree come to what its evaluation comes to. -/
theorem comesTo_actions (node : Node) (m : Machine) :
    m.ComesTo node.actions (evaluate node m.environment) := by
  induction node using Node.evaluation_induction generalizing m with
  | number value l => simp [ComesTo, Node.actions, run_singleton, Action.step]
  | reference name l =>
    rw [evaluate_reference, Node.actions]
    cases hget : m.environment.get? name with
    | some value => simp [ComesTo, run_singleton, Action.step, hget]
    | none =>
      have hload : (Action.load name l).step m = .error (.failure (.undefinedVariable name l)) := by
        rw [Action.step, hget]
      simpa [ComesTo] using failsAt_head hload []
  | declaration name initial l ih =>
    rw [evaluate_declaration, Node.actions]
    have hinitial := ih m
    generalize evaluate initial m.environment = result at hinitial ⊢
    obtain ⟨e | value, between, events⟩ := result
    · simpa [ComesTo] using FailsAt.append hinitial _
    -- the name is looked for in what the first value has left
    let m' : Machine := ⟨value :: m.stack, between, m.log ++ events.filter Event.isBinding⟩
    have hrun : m.run initial.actions = .ok m' := hinitial
    cases hbound : between.contains name with
    | true =>
      have hcheck : (Action.checkUndeclared name l).step m' =
          .error (.failure (.duplicateDeclaration name l)) := if_pos hbound
      simpa [ComesTo, hbound] using (failsAt_head hcheck [.declare name]).after hrun
    | false =>
      have hcheck : (Action.checkUndeclared name l).step m' = .ok m' :=
        if_neg (Bool.eq_false_iff.1 hbound)
      simp only [ComesTo, hbound, Bool.false_eq_true, ↓reduceIte]
      rw [run_append hrun, run_cons hcheck, run_singleton]
      simp [Action.step, m', List.filter_cons]
  | assignment name target l ih =>
    rw [evaluate_assignment, Node.actions]
    cases hbound : m.environment.contains name with
    | false =>
      have hcheck : (Action.checkDeclared name l).step m =
          .error (.failure (.undefinedVariable name l)) := if_neg (Bool.eq_false_iff.1 hbound)
      simpa [ComesTo] using failsAt_head hcheck _
    | true =>
      have hcheck : (Action.checkDeclared name l).step m = .ok m := if_pos hbound
      have htarget := ih m
      generalize evaluate target m.environment = result at htarget ⊢
      obtain ⟨e | value, after, events⟩ := result
      · have hfails := (FailsAt.append htarget [.assign name]).after
          ((run_singleton m _).trans hcheck)
        simpa [ComesTo] using hfails
      · simp only [ComesTo, ↓reduceIte]
        rw [run_cons hcheck, run_append htarget, run_singleton]
        simp [Action.step, List.filter_cons]
  | binary op left right l ihleft ihright =>
    rw [evaluate_binary, Node.actions]
    have hleft := ihleft m
    generalize evaluate left m.environment = result at hleft ⊢
    obtain ⟨e | x, between, events⟩ := result
    · simpa [ComesTo] using FailsAt.append hleft _
    -- the right operand works on what the left one has left
    let m' : Machine := ⟨x :: m.stack, between, m.log ++ events.filter Event.isBinding⟩
    have hrun : m.run left.actions = .ok m' := hleft
    have hright : m'.ComesTo right.actions (evaluate right between) := ihright m'
    dsimp only
    generalize evaluate right between = result at hright ⊢
    obtain ⟨e | y, after, more⟩ := result
    · simpa [ComesTo, m'] using (FailsAt.append hright [.apply op]).after hrun
    · simp only [ComesTo]
      rw [run_append hrun, run_append hright, run_singleton]
      simp [Action.step, m']
  | call callee args l => exact m.comesTo_refuse (.call callee) l .call
  | prototype signature => exact m.comesTo_refuse (.prototype signature.name) _ .prototype
  | function signature body l => exact m.comesTo_refuse (.function signature.name) l .function

end Machine

open Machine

/-- **Evaluation is carrying out the actions of the tree from left to right.**  If the tree has a
value, all its actions can be carried out, and the value is all that they leave on the stack.  If
not, the error is that of the first action that fails.  Either way the environment that is left, and
the bindings that were logged, are those of the actions carried out by then: what was bound in front
of a failure stays bound, and nothing behind it happens. -/
theorem evaluate_eq_run (node : Node) (env : Environment) :
    let result := evaluate node env
    let log := result.events.filter Event.isBinding
    match result.outcome with
    | .ok value => (start env).run node.actions = .ok ⟨[value], result.environment, log⟩
    | .error e =>
      ∃ (before : List Action) (failing : Action) (behind : List Action) (stack : List Float),
        node.actions = before ++ failing :: behind ∧
          (start env).run before = .ok ⟨stack, result.environment, log⟩ ∧
          failing.step ⟨stack, result.environment, log⟩ = .error (.failure e) :=
  comesTo_actions node (start env)

end Reckoner
