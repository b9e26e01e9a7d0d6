import Reckoner.Evaluation.Evaluate

/-!
# Rules of evaluation

What the evaluation of a tree comes to, as rules: one for each way in which a tree can have a value,
fail by itself, or fail because a tree below it does.  What is true of all evaluations is proved by
induction on the rules, and then each case has at hand what is known in it.

## Main definitions

* `Node.refused?` — that a node is a form without a meaning.
* `Evaluates` — the rules of evaluation.

## Main results

* `evaluates_iff` — **the rules say what evaluation does**, no more and no less.
-/

namespace Reckoner

/-- The form without a meaning that a node is, and its place; a node with a meaning is none. -/
def Node.refused? : Node → Option (Construct × Location)
  | .call callee _ l => some (.call callee, l)
  | .prototype signature => some (.prototype signature.name, signature.location)
  | .function signature _ l => some (.function signature.name, l)
  | _ => none

/-- `Evaluates env node result`: in the environment `env`, the tree comes to the result. -/
inductive Evaluates : Environment → Node → Evaluation.Result Float → Prop
  /-- A number is its own value. -/
  | number {env : Environment} {value : Float} {l : Location} :
      Evaluates env (.number value l) ⟨.ok value, env, [.evaluate .number]⟩
  /-- A name has the value it is bound to. -/
  | reference {env : Environment} {name : String} {l : Location} {value : Float} :
      env.get? name = some value →
      Evaluates env (.reference name l) ⟨.ok value, env, [.evaluate .reference]⟩
  /-- A name that is not bound has none. -/
  | unbound {env : Environment} {name : String} {l : Location} : env.get? name = none →
      Evaluates env (.reference name l)
        ⟨.error (.undefinedVariable name l), env, [.evaluate .reference]⟩
  /-- A name that is free is bound to its first value. -/
  | declaration {env after : Environment} {name : String} {initial : Node} {l : Location}
      {value : Float} {events : List Event} :
      Evaluates env initial ⟨.ok value, after, events⟩ → after.contains name = false →
      Evaluates env (.declaration name initial l)
        ⟨.ok value, after.set name value,
          .evaluate .declaration :: (events ++ [.declare name value])⟩
  /-- A name that is bound by the time there is a first value for it is not declared. -/
  | duplicate {env after : Environment} {name : String} {initial : Node} {l : Location}
      {value : Float} {events : List Event} :
      Evaluates env initial ⟨.ok value, after, events⟩ → after.contains name = true →
      Evaluates env (.declaration name initial l)
        ⟨.error (.duplicateDeclaration name l), after, .evaluate .declaration :: events⟩
  /-- Without a first value nothing is declared. -/
  | noInitial {env after : Environment} {name : String} {initial : Node} {l : Location}
      {e : EvalError} {events : List Event} : Evaluates env initial ⟨.error e, after, events⟩ →
      Evaluates env (.declaration name initial l)
        ⟨.error e, after, .evaluate .declaration :: events⟩
  /-- A name that is bound is given its new value. -/
  | assignment {env after : Environment} {name : String} {target : Node} {l : Location}
      {value : Float} {events : List Event} : env.contains name = true →
      Evaluates env target ⟨.ok value, after, events⟩ →
      Evaluates env (.assignment name target l)
        ⟨.ok value, after.set name value,
          .evaluate .assignment :: (events ++ [.assign name value])⟩
  /-- A name that is not bound is given no new value. -/
  | undeclared {env : Environment} {name : String} {target : Node} {l : Location} :
      env.contains name = false →
      Evaluates env (.assignment name target l)
        ⟨.error (.undefinedVariable name l), env, [.evaluate .assignment]⟩
  /-- Without a new value nothing is assigned. -/
  | noTarget {env after : Environment} {name : String} {target : Node} {l : Location}
      {e : EvalError} {events : List Event} : env.contains name = true →
      Evaluates env target ⟨.error e, after, events⟩ →
      Evaluates env (.assignment name target l)
        ⟨.error e, after, .evaluate .assignment :: events⟩
  /-- An operator is applied to the values of both operands. -/
  | binary {env between after : Environment} {op : BinaryOperator} {left right : Node}
      {l : Location} {x y : Float} {events more : List Event} :
      Evaluates env left ⟨.ok x, between, events⟩ →
      Evaluates between right ⟨.ok y, after, more⟩ →
      Evaluates env (.binary op left right l)
        ⟨.ok (op.apply x y), after, .evaluate (.binary op) :: (events ++ more)⟩
  /-- Without a value of the left operand the right one is not evaluated. -/
  | noLeft {env after : Environment} {op : BinaryOperator} {left right : Node} {l : Location}
      {e : EvalError} {events : List Event} : Evaluates env left ⟨.error e, after, events⟩ →
      Evaluates env (.binary op left right l)
        ⟨.error e, after, .evaluate (.binary op) :: events⟩
  /-- Without a value of the right operand there is none. -/
  | noRight {env between after : Environment} {op : BinaryOperator} {left right : Node}
      {l : Location} {x : Float} {e : EvalError} {events more : List Event} :
      Evaluates env left ⟨.ok x, between, events⟩ →
      Evaluates between right ⟨.error e, after, more⟩ →
      Evaluates env (.binary op left right l)
        ⟨.error e, after, .evaluate (.binary op) :: (events ++ more)⟩
  /-- A form without a meaning is refused, and nothing below it is looked at. -/
  | refused {env : Environment} {node : Node} {construct : Construct} {l : Location} :
      node.refused? = some (construct, l) →
      Evaluates env node ⟨.error (.notEvaluable construct l), env, [.evaluate node.shape]⟩

/-- What the rules say is what evaluation does. -/
theorem Evaluates.evaluate_eq {env : Environment} {node : Node} {result : Evaluation.Result Float}
    (h : Evaluates env node result) : evaluate node env = result := by
  induction h with
  | number => rfl
  | reference hget | unbound hget => rw [evaluate_reference, hget]
  | declaration _ hfree ih => simp [evaluate_declaration, ih, hfree]
  | duplicate _ hbound ih => simp [evaluate_declaration, ih, hbound]
  | noInitial _ ih => rw [evaluate_declaration, ih]
  | assignment hbound _ ih => rw [evaluate_assignment, if_pos hbound, ih]
  | undeclared hfree => simp [evaluate_assignment, hfree]
  | noTarget hbound _ ih => rw [evaluate_assignment, if_pos hbound, ih]
  | binary _ _ ihleft ihright => simp [evaluate_binary, ihleft, ihright]
  | noLeft _ ih => rw [evaluate_binary, ih]
  | noRight _ _ ihleft ihright => simp [evaluate_binary, ihleft, ihright]
  | @refused env node construct l hrefused => cases node <;> cases hrefused <;> rfl

/-- What evaluation does is what the rules say. -/
theorem evaluates (node : Node) (env : Environment) : Evaluates env node (evaluate node env) := by
  induction node using Node.evaluation_induction generalizing env with
  | number value l => exact .number
  | reference name l =>
    rw [evaluate_reference]
    split
    · next hget => exact .reference hget
    · next hget => exact .unbound hget
  | declaration name initial l ih =>
    have hinitial := ih env
    rw [evaluate_declaration]
    split
    · next heq => exact .noInitial (heq ▸ hinitial)
    · next heq =>
      rw [heq] at hinitial
      split
      · next hbound => exact .duplicate hinitial hbound
      · next hfree => exact .declaration hinitial (Bool.eq_false_iff.2 hfree)
  | assignment name target l ih =>
    have htarget := ih env
    rw [evaluate_assignment]
    split
    · next hbound =>
      split
      · next heq => exact .noTarget hbound (heq ▸ htarget)
      · next heq => exact .assignment hbound (heq ▸ htarget)
    · next hfree => exact .undeclared (Bool.eq_false_iff.2 hfree)
  | binary op left right l ihleft ihright =>
    have hleft := ihleft env
    rw [evaluate_binary]
    split
    · next heq => exact .noLeft (heq ▸ hleft)
    · next between _ heq =>
      rw [heq] at hleft
      have hright := ihright between
      split
      · next heq => exact .noRight hleft (heq ▸ hright)
      · next heq => exact .binary hleft (heq ▸ hright)
  | call callee args l => exact .refused rfl
  | prototype signature => exact .refused rfl
  | function signature body l => exact .refused rfl

/-- **The rules say what evaluation does**, no more and no less. -/
theorem evaluates_iff {env : Environment} {node : Node} {result : Evaluation.Result Float} :
    Evaluates env node result ↔ evaluate node env = result :=
  ⟨Evaluates.evaluate_eq, fun h => h ▸ evaluates node env⟩

end Reckoner
