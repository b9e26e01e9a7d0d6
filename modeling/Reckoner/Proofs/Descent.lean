import Reckoner.Proofs.Blame
import Reckoner.Proofs.Height
import Reckoner.Proofs.SourceOrder

/-!
# Going down a tree

Who goes down a tree by calling himself for the nodes below has a call open for each node on the
way, and an open call takes room.  The room of a process is bounded, and a call for which there is
none left does not fail: it kills the process.  Nothing of what the calls around it were about is
heard of again.

Here a descent has a budget for calls within calls.  A tree is evaluated within the budget exactly
if it is not deeper than that, and then as it would be without a budget; a walk that visits every
node, as one that writes a tree out or gives it back does, needs as much as the tree is high.

A tree is no higher than its line is long, and it can be as deep as the line is long.

## Main definitions

* `Confined` — evaluations for which there may be no room.
* `Node.evaluationStep` — what evaluating a node does, given what evaluating the nodes below it
  does.
* `evaluateWithin room` — evaluation with a budget for calls within calls.
* `Node.depth` — how many nodes are being evaluated at the same time at most.
* `Node.walksWithin room` — whether a budget is enough for visiting every node.

## Main results

* `evaluateWithin_eq` — **a tree is evaluated within a budget if it is not deeper, and not
  otherwise.**
* `Node.walksWithin_iff` — a walk needs as much room as the tree is high.
* `Node.depth_le_height` — no tree is deeper than it is high.
* `Script.height_le_length` — no tree is higher than its line is long.
* `Node.lt_depth_of_chain` — a chain is as deep as it is long, whatever is declared.
-/

namespace Reckoner

open Grammar

/-! ### Evaluations for which there may be no room -/

/-- A computation like an evaluation that comes to nothing if there is no room for it: neither its
outcome nor what it has changed is seen. -/
def Confined (α : Type) : Type := Environment → Option (Evaluation.Result α)

namespace Confined

variable {α β : Type}

/-- An evaluation that has room. -/
def ofEvaluation (x : Evaluation α) : Confined α := fun env => some (x env)

/-- Goes on with what follows, unless there is no value to go on with or was no room. -/
def andThen (x : Confined α) (f : α → Confined β) : Confined β := fun env =>
  match x env with
  | none => none
  | some ⟨.error e, env, events⟩ => some ⟨.error e, env, events⟩
  | some ⟨.ok a, env, events⟩ =>
    (f a env).map fun result => { result with events := events ++ result.events }

instance : Monad Confined where
  pure a := ofEvaluation (pure a)
  bind := andThen

instance : MonadLift Evaluation Confined := ⟨ofEvaluation⟩

/-- There is no room for another call. -/
def exhausted : Confined α := fun _ => none

variable {x : Confined α} {f : α → Confined β} {env between : Environment} {events : List Event}

/-- Without room nothing follows. -/
theorem bind_apply_of_none (h : x env = none) : (x >>= f) env = none := by
  simp [bind, andThen, h]

/-- Without a value nothing follows either. -/
theorem bind_apply_of_error {e : EvalError} (h : x env = some ⟨.error e, between, events⟩) :
    (x >>= f) env = some ⟨.error e, between, events⟩ := by
  simp [bind, andThen, h]

/-- With a value the computation goes on in the environment that is left. -/
theorem bind_apply_of_ok {a : α} (h : x env = some ⟨.ok a, between, events⟩) :
    (x >>= f) env =
      (f a between).map fun result => { result with events := events ++ result.events } := by
  simp [bind, andThen, h]

/-- There is no room for the whole if there is none for what follows. -/
theorem bind_apply_of_ok_none {a : α} (h : x env = some ⟨.ok a, between, events⟩)
    (hnext : f a between = none) : (x >>= f) env = none := by
  rw [bind_apply_of_ok h, hnext, Option.map_none]

end Confined

/-- What evaluating a node does, given what evaluating the nodes below it does. -/
def Node.evaluationStep {m : Type → Type} [Monad m] [MonadLiftT Evaluation m]
    (invoke : Node → m Float) : Node → m Float
  | .number value _ => do
    Evaluation.log (.evaluate .number)
    return value
  | .reference name location => do
    Evaluation.log (.evaluate .reference)
    match ← Evaluation.lookup? name with
    | some value => return value
    | none => Evaluation.fail (.undefinedVariable name location)
  | .declaration name initial location => do
    Evaluation.log (.evaluate .declaration)
    let value ← invoke initial
    if ← Evaluation.isDeclared name then
      Evaluation.fail (.duplicateDeclaration name location)
    else
      Evaluation.log (.declare name value)
      Evaluation.set name value
      return value
  | .assignment name value location => do
    Evaluation.log (.evaluate .assignment)
    if ← Evaluation.isDeclared name then
      let value ← invoke value
      Evaluation.log (.assign name value)
      Evaluation.set name value
      return value
    else
      Evaluation.fail (.undefinedVariable name location)
  | .binary op left right _ => do
    Evaluation.log (.evaluate (.binary op))
    let leftValue ← invoke left
    let rightValue ← invoke right
    return op.apply leftValue rightValue
  | .call callee _ location => do
    Evaluation.log (.evaluate .call)
    Evaluation.fail (.notEvaluable (.call callee) location)
  | .prototype signature => do
    Evaluation.log (.evaluate .prototype)
    Evaluation.fail (.notEvaluable (.prototype signature.name) signature.location)
  | .function signature _ location => do
    Evaluation.log (.evaluate .function)
    Evaluation.fail (.notEvaluable (.function signature.name) location)

/-- Evaluation is what its step makes of it. -/
theorem evaluate_eq_evaluationStep (node : Node) :
    evaluate node = node.evaluationStep evaluate := by
  cases node <;> rw [evaluate] <;> rfl

/-- The evaluation of a node with room for `room` calls within calls, this one included. -/
def evaluateWithin : Nat → Node → Confined Float
  | 0, _ => Confined.exhausted
  | room + 1, node => node.evaluationStep (evaluateWithin room)

/-! ### What a budget has to be -/

open Confined

namespace Confined

variable {α β : Type} {x : Confined α} {y : Evaluation α} {env : Environment}

/-- In an environment, there is room for `x`, and it does what `y` does. -/
def Agrees (env : Environment) (x : Confined α) (y : Evaluation α) : Prop := x env = some (y env)

theorem agrees_ofEvaluation (env : Environment) (y : Evaluation α) :
    Agrees env (ofEvaluation y) y := rfl

/-- There is room for computations one after the other if there is for each of them. -/
theorem Agrees.bind {f : α → Confined β} {g : α → Evaluation β} (h : Agrees env x y)
    (hnext : ∀ a between events, y env = ⟨.ok a, between, events⟩ → Agrees between (f a) (g a)) :
    Agrees env (x >>= f) (y >>= g) := by
  unfold Agrees at h ⊢
  rcases hrun : y env with ⟨e | a, between, events⟩
  · rw [hrun] at h
    rw [bind_apply_of_error h, Evaluation.bind_apply_of_error hrun]
  · rw [hrun] at h
    rw [bind_apply_of_ok h, Evaluation.bind_apply_of_ok hrun, hnext a between events hrun]
    rfl

/-- A step of an evaluation always has room. -/
theorem Agrees.step {f : α → Confined β} {g : α → Evaluation β}
    (hnext : ∀ a between events, y env = ⟨.ok a, between, events⟩ → Agrees between (f a) (g a)) :
    Agrees env (ofEvaluation y >>= f) (y >>= g) := (agrees_ofEvaluation env y).bind hnext

end Confined

/-- How many nodes are being evaluated at the same time at most when a tree is evaluated: the nodes
on the deepest way down that evaluation takes. -/
def Node.depth : Node → Environment → Nat
  | .declaration _ initial _, env => initial.depth env + 1
  | .assignment name value _, env => if env.contains name then value.depth env + 1 else 1
  | .binary _ left right _, env =>
    match evaluate left env with
    | ⟨.ok _, between, _⟩ => max (left.depth env) (right.depth between) + 1
    | ⟨.error _, _, _⟩ => left.depth env + 1
  | .number .., _ | .reference .., _ | .call .., _ | .prototype _, _ | .function .., _ => 1

theorem Node.depth_pos (node : Node) (env : Environment) : 0 < node.depth env := by
  cases node <;> simp only [depth] <;> first | omega | (split <;> omega)

/-- A tree that is not deeper than a budget is evaluated within it. -/
theorem evaluateWithin_of_depth_le {room : Nat} {node : Node} {env : Environment}
    (h : node.depth env ≤ room) : Agrees env (evaluateWithin room node) (evaluate node) := by
  induction room generalizing node env with
  | zero => exact absurd (node.depth_pos env) (Nat.not_lt.2 h)
  | succ room ih =>
    rw [evaluate_eq_evaluationStep, evaluateWithin]
    cases node with
    | number value l => exact .step fun _ _ _ _ => agrees_ofEvaluation _ (pure value)
    | reference name l =>
      refine .step fun _ _ _ _ => .step fun found _ _ _ => ?_
      cases found with
      | some value => exact agrees_ofEvaluation _ (pure value)
      | none => exact agrees_ofEvaluation _ (Evaluation.fail _)
    | declaration name initial l =>
      rw [Node.depth] at h
      refine .step fun _ _ _ hlog => ?_
      cases hlog
      refine (ih (Nat.le_of_succ_le_succ h)).bind fun value _ _ _ => .step fun bound _ _ _ => ?_
      cases bound with
      | true => exact agrees_ofEvaluation _ (Evaluation.fail _)
      | false => exact .step fun _ _ _ _ => .step fun _ _ _ _ => agrees_ofEvaluation _ (pure value)
    | assignment name value l =>
      rw [Node.depth] at h
      refine .step fun _ _ _ hlog => .step fun bound _ _ hbound => ?_
      cases hlog
      cases hbound
      cases hname : env.contains name with
      | false => exact agrees_ofEvaluation _ (Evaluation.fail _)
      | true =>
        rw [if_pos hname] at h
        refine (ih (Nat.le_of_succ_le_succ h)).bind fun x _ _ _ => ?_
        exact .step fun _ _ _ _ => .step fun _ _ _ _ => agrees_ofEvaluation _ (pure x)
    | binary op left right l =>
      refine .step fun _ _ _ hlog => ?_
      cases hlog
      rcases hleft : evaluate left env with ⟨e | x, between, events⟩
      · rw [Node.depth, hleft] at h
        refine (ih (Nat.le_of_succ_le_succ h)).bind fun x _ _ hvalue => ?_
        rw [hleft] at hvalue
        cases hvalue
      · rw [Node.depth, hleft] at h
        obtain ⟨hdepth, hdepthRight⟩ := Nat.max_le.1 (Nat.le_of_succ_le_succ h)
        refine (ih hdepth).bind fun x _ _ hvalue => ?_
        rw [hleft] at hvalue
        cases hvalue
        exact (ih hdepthRight).bind fun y _ _ _ => agrees_ofEvaluation _ (pure _)
    | call | prototype | function =>
      exact .step fun _ _ _ _ => agrees_ofEvaluation _ (Evaluation.fail _)

/-- A tree that is deeper than a budget is not evaluated within it. -/
theorem evaluateWithin_of_lt_depth {room : Nat} {node : Node} {env : Environment}
    (h : room < node.depth env) : evaluateWithin room node env = none := by
  induction room generalizing node env with
  | zero => rfl
  | succ room ih =>
    rw [evaluateWithin]
    cases node with
    | number | reference | call | prototype | function =>
      rw [Node.depth] at h
      omega
    | declaration name initial l =>
      rw [Node.depth] at h
      exact bind_apply_of_ok_none rfl (bind_apply_of_none (ih (Nat.lt_of_succ_lt_succ h)))
    | assignment name value l =>
      rw [Node.depth] at h
      cases hname : env.contains name with
      | false =>
        rw [if_neg (Bool.eq_false_iff.1 hname)] at h
        omega
      | true =>
        rw [if_pos hname] at h
        have hbound : ofEvaluation (Evaluation.isDeclared name) env = some ⟨.ok true, env, []⟩ := by
          rw [ofEvaluation, Evaluation.isDeclared, hname]
        exact bind_apply_of_ok_none rfl (bind_apply_of_ok_none hbound
          (bind_apply_of_none (ih (Nat.lt_of_succ_lt_succ h))))
    | binary op left right l =>
      refine bind_apply_of_ok_none rfl ?_
      by_cases hdepth : left.depth env ≤ room
      · -- the left operand is evaluated, so the right one is what is too deep
        have hrun := evaluateWithin_of_depth_le hdepth
        unfold Agrees at hrun
        rw [Node.depth] at h
        rcases hleft : evaluate left env with ⟨e | x, between, events⟩
        · rw [hleft] at h
          exact absurd h (Nat.not_lt.2 (Nat.succ_le_succ hdepth))
        · rw [hleft] at h hrun
          dsimp only at h
          exact bind_apply_of_ok_none hrun (bind_apply_of_none (ih (by omega)))
      · exact bind_apply_of_none (ih (Nat.not_le.1 hdepth))

/-- **A tree is evaluated within a budget if it is not deeper, and not otherwise.**  What is
evaluated within a budget is evaluated as it is without one. -/
theorem evaluateWithin_eq (room : Nat) (node : Node) (env : Environment) :
    evaluateWithin room node env =
      if node.depth env ≤ room then some (evaluate node env) else none := by
  split
  · next h => exact evaluateWithin_of_depth_le h
  · next h => exact evaluateWithin_of_lt_depth (Nat.not_le.1 h)

/-! ### Walks -/

namespace Node

/-- The nodes right below a node. -/
def children : Node → List Node
  | number .. | reference .. | prototype _ => []
  | declaration _ initial _ => [initial]
  | assignment _ value _ => [value]
  | binary _ left right _ => [left, right]
  | call _ args _ => args
  | function _ body _ => [body]

/-- Whether there is room, with `room` calls within calls, for a walk that visits every node of a
tree: one call for each node, inside the one for the node above it. -/
def walksWithin : Nat → Node → Bool
  | 0, _ => false
  | room + 1, node => node.children.all (walksWithin room)

/-- A tree is one higher than the highest tree below its root. -/
theorem height_eq (node : Node) : node.height = (node.children.map height).foldr max 0 + 1 := by
  unfold height
  cases node <;> simp [heightBy, children]

/-- A walk needs as much room as the tree is high. -/
theorem walksWithin_iff {room : Nat} {node : Node} :
    node.walksWithin room = true ↔ node.height ≤ room := by
  induction room generalizing node with
  | zero =>
    rw [height_eq]
    exact iff_of_false nofun (Nat.not_succ_le_zero _)
  | succ room ih =>
    rw [walksWithin, List.all_eq_true, height_eq, Nat.succ_le_succ_iff, foldr_max_le,
      List.forall_mem_map]
    exact forall₂_congr fun child _ => ih

/-- No tree is deeper than it is high. -/
theorem depth_le_height (node : Node) (env : Environment) : node.depth env ≤ node.height := by
  unfold height
  induction node using Node.evaluation_induction generalizing env with
  | number | reference | prototype => rw [depth, heightBy]
  | call | function =>
    rw [depth, heightBy]
    exact Nat.succ_le_succ (Nat.zero_le _)
  | declaration name initial l ih =>
    rw [depth, heightBy]
    exact Nat.succ_le_succ (ih env)
  | assignment name value l ih =>
    rw [depth, heightBy]
    split
    · exact Nat.succ_le_succ (ih env)
    · exact Nat.succ_le_succ (Nat.zero_le _)
  | binary op left right l ihleft ihright =>
    rw [depth, heightBy]
    have hleft := ihleft env
    split
    · next x between events _ =>
      have hright := ihright between
      omega
    · omega

theorem length_locations_le_of_mem {node : Node} {nodes : List Node} (h : node ∈ nodes) :
    node.locations.length ≤ (listLocations nodes).length := by
  induction h with
  | head nodes =>
    rw [listLocations, List.length_append]
    exact Nat.le_add_right _ _
  | tail other _ ih =>
    rw [listLocations, List.length_append]
    exact Nat.le_trans ih (Nat.le_add_left _ _)

/-- A tree has at least as many nodes as it is high. -/
theorem height_le_length_locations (node : Node) : node.height ≤ node.locations.length := by
  unfold height
  fun_induction heightBy 1 node with
  | case1 | case2 | case3 => simp [locations]
  | case4 name initial l ih => exact Nat.succ_le_succ ih
  | case5 name value l ih => exact Nat.succ_le_succ ih
  | case6 op left right l ihleft ihright =>
    rw [locations, List.length_append, List.length_cons]
    omega
  | case7 callee args l ih =>
    rw [locations, List.length_cons]
    refine Nat.succ_le_succ (foldr_max_le.2 (List.forall_mem_map.2 fun arg harg => ?_))
    exact Nat.le_trans (ih arg harg) (length_locations_le_of_mem harg)
  | case8 signature body l ih =>
    rw [locations, List.length_cons, List.length_cons]
    omega

end Node

/-- No text has more tokens than characters. -/
theorem Source.length_tokenize_le {line : String} {s : TokenStream}
    (h : (Source.ofString line).tokenize = .ok s) : s.length ≤ line.length := by
  obtain ⟨r, hwell, hchars, hreads⟩ := exists_row_of_tokenize h
  have hlength := hreads.length_eq
  rw [List.length_map] at hlength
  calc s.length
    _ = r.pieces.length := hlength
    _ ≤ r.chars.length := hwell.length_le
    _ = line.length := by rw [hchars, String.length_toList]

/-- No tree is higher than its line is long. -/
theorem Script.height_le_length {line : String} {node : Node}
    (h : node ∈ (ofString line).statements) : node.height ≤ line.length := by
  cases htokens : (Source.ofString line).tokenize with
  | error e =>
    rw [ofString, htokens] at h
    cases h
  | ok s =>
    rw [ofString_of_tokenize htokens] at h
    obtain ⟨t, u, hrest, hrun⟩ := (read_rests s).1 node h
    obtain ⟨ts, stop, hyields, -, huses⟩ := Grammar.yields_of_statement hrun
    calc node.height
      _ ≤ node.locations.length := node.height_le_length_locations
      _ ≤ ts.length := by simpa using hyields.locations_sublist.length_le
      _ ≤ t.length := by
        rw [TokenStream.length, huses, List.length_append, List.length_append]
        omega
      _ ≤ s.length := hrest.length_le
      _ ≤ line.length := Source.length_tokenize_le htokens

/-! ### Chains -/

/-- A chain is as deep as it is long, whatever is declared: its left operand is evaluated first. -/
theorem Node.lt_depth_of_chain {n : Nat} {node : Node}
    (h : node.unplaced = (Bracketed.chain n).tree) (env : Environment) : n < node.depth env := by
  induction n generalizing node with
  | zero => exact node.depth_pos env
  | succ n ih =>
    rw [Bracketed.chain, Bracketed.tree] at h
    cases node with
    | binary op left right l =>
      rw [unplaced] at h
      obtain ⟨-, hleft, -, -⟩ := Node.binary.inj h
      have hdepth := ih hleft
      rw [Node.depth]
      split <;> omega
    | number | reference | declaration | assignment | call | prototype | function =>
      rw [unplaced] at h
      cases h

end Reckoner
