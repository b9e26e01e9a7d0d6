import Reckoner.Proofs.Visits

/-!
# Changes to names of the tree only

Evaluation changes an environment step by step: it declares a name that is free, or gives a new
value to a name that is bound.  The names are those that the tree declares or assigns to where
evaluation may come; what stands in the arguments of a call or in the body of a function does not
count.  Since a name is never unbound, the first value of a name that is bound already is thrown
away, even if the tree is evaluated as far as its declaration; so only an assignment changes a
value.

All of this is true whether the tree has a value or not.

## Main definitions

* `Node.declared`, `Node.assigned` — the names that a tree may declare, or assign to.
* `Environment.ChangesTo` — that an environment comes of another one in such steps.

## Main results

* `changesTo_of_evaluates` — evaluation changes the environment in such steps.
* `evaluate_touches` — **evaluation touches only what the tree names.**
-/

namespace Reckoner

namespace Node

/-- The names that a tree declares outside the arguments of calls and the bodies of functions. -/
def declared (node : Node) : List String :=
  node.preorder.filterMap fun
    | .declaration name _ _ => some name
    | _ => none

/-- The names that a tree assigns to outside the arguments of calls and the bodies of functions. -/
def assigned (node : Node) : List String :=
  node.preorder.filterMap fun
    | .assignment name _ _ => some name
    | _ => none

@[simp] theorem declared_declaration (name : String) (initial : Node) (l : Location) :
    (declaration name initial l).declared = name :: initial.declared := rfl

@[simp] theorem assigned_declaration (name : String) (initial : Node) (l : Location) :
    (declaration name initial l).assigned = initial.assigned := rfl

@[simp] theorem declared_assignment (name : String) (target : Node) (l : Location) :
    (assignment name target l).declared = target.declared := rfl

@[simp] theorem assigned_assignment (name : String) (target : Node) (l : Location) :
    (assignment name target l).assigned = name :: target.assigned := rfl

@[simp] theorem declared_binary (op : BinaryOperator) (left right : Node) (l : Location) :
    (binary op left right l).declared = left.declared ++ right.declared := List.filterMap_append

@[simp] theorem assigned_binary (op : BinaryOperator) (left right : Node) (l : Location) :
    (binary op left right l).assigned = left.assigned ++ right.assigned := List.filterMap_append

end Node

/-! ### Changes in steps -/

namespace Environment

/-- `env.ChangesTo declared assigned after`: the environment `after` comes of `env` by declaring
names of `declared`, each when it is free, and by giving new values to names of `assigned`, each
when it is bound, in any order. -/
inductive ChangesTo (declared assigned : List String) (env : Environment) : Environment → Prop
  | refl : ChangesTo declared assigned env env
  | declare {after : Environment} {name : String} (value : Float) :
      ChangesTo declared assigned env after → name ∈ declared → after.contains name = false →
      ChangesTo declared assigned env (after.set name value)
  | assign {after : Environment} {name : String} (value : Float) :
      ChangesTo declared assigned env after → name ∈ assigned → after.contains name = true →
      ChangesTo declared assigned env (after.set name value)

namespace ChangesTo

variable {declared assigned : List String} {env between after : Environment} {name : String}

/-- More names may be changed than are. -/
theorem mono {declared' assigned' : List String} (h : env.ChangesTo declared assigned after)
    (hdeclared : declared ⊆ declared') (hassigned : assigned ⊆ assigned') :
    env.ChangesTo declared' assigned' after := by
  induction h with
  | refl => exact .refl
  | declare value _ hmem hfree ih => exact .declare value ih (hdeclared hmem) hfree
  | assign value _ hmem hbound ih => exact .assign value ih (hassigned hmem) hbound

theorem trans (h : env.ChangesTo declared assigned between)
    (h' : between.ChangesTo declared assigned after) : env.ChangesTo declared assigned after := by
  induction h' with
  | refl => exact h
  | declare value _ hmem hfree ih => exact .declare value ih hmem hfree
  | assign value _ hmem hbound ih => exact .assign value ih hmem hbound

/-- No name is unbound. -/
theorem contains (h : env.ChangesTo declared assigned after) (hbound : env.contains name = true) :
    after.contains name = true := by
  induction h with
  | refl => exact hbound
  | declare value _ _ _ ih | assign value _ _ _ ih => rw [contains_set, ih, Bool.or_true]

/-- A name that is new is one of those that may be declared. -/
theorem mem_declared (h : env.ChangesTo declared assigned after)
    (hbound : after.contains name = true) (hfree : env.contains name = false) :
    name ∈ declared := by
  induction h with
  | refl => cases hbound.symm.trans hfree
  | @declare after found value _ hmem _ ih =>
    by_cases heq : found = name
    · exact heq ▸ hmem
    · rw [contains_set, beq_false_of_ne heq] at hbound
      exact ih hbound
  | @assign after found value _ _ hfound ih =>
    by_cases heq : found = name
    · exact ih (heq ▸ hfound)
    · rw [contains_set, beq_false_of_ne heq] at hbound
      exact ih hbound

/-- A name that may be neither declared nor assigned to stays what it is. -/
theorem get?_eq (h : env.ChangesTo declared assigned after) (hdeclared : name ∉ declared)
    (hassigned : name ∉ assigned) : after.get? name = env.get? name := by
  induction h with
  | refl => rfl
  | declare value _ hmem _ ih => rw [get?_set, if_neg (ne_of_mem_of_not_mem hmem hdeclared), ih]
  | assign value _ hmem _ ih => rw [get?_set, if_neg (ne_of_mem_of_not_mem hmem hassigned), ih]

/-- A name that is bound keeps its value, unless it may be assigned to. -/
theorem get?_eq_of_contains (h : env.ChangesTo declared assigned after)
    (hbound : env.contains name = true) (hassigned : name ∉ assigned) :
    after.get? name = env.get? name := by
  induction h with
  | refl => rfl
  | @declare between found value hchanges _ hfree ih =>
    -- the name has been bound all the time, so it is not the one that is declared
    have hne : found ≠ name := by
      rintro rfl
      cases hfree.symm.trans (hchanges.contains hbound)
    rw [get?_set, if_neg hne, ih]
  | assign value _ hmem _ ih => rw [get?_set, if_neg (ne_of_mem_of_not_mem hmem hassigned), ih]

/-- Where no name may be changed, nothing is. -/
theorem eq (h : env.ChangesTo [] [] after) : after = env := by
  cases h with
  | refl => rfl
  | declare value _ hmem _ | assign value _ hmem _ => cases hmem

end ChangesTo

end Environment

/-! ### Evaluation -/

/-- Evaluation changes the environment by declaring names that the tree declares, and giving new
values to names that it assigns to. -/
theorem changesTo_of_evaluates {env : Environment} {node : Node} {result : Evaluation.Result Float}
    (h : Evaluates env node result) :
    env.ChangesTo node.declared node.assigned result.environment := by
  induction h with
  | number | reference | unbound | undeclared | refused => exact .refl
  | @declaration env after name initial l value events _ hfree ih =>
    rw [Node.declared_declaration, Node.assigned_declaration]
    exact .declare value (ih.mono (List.subset_cons_self _ _) (List.Subset.refl _))
      List.mem_cons_self hfree
  | duplicate _ _ ih | noInitial _ ih =>
    rw [Node.declared_declaration, Node.assigned_declaration]
    exact ih.mono (List.subset_cons_self _ _) (List.Subset.refl _)
  | @assignment env after name target l value events hbound _ ih =>
    rw [Node.declared_assignment, Node.assigned_assignment]
    exact .assign value (ih.mono (List.Subset.refl _) (List.subset_cons_self _ _))
      List.mem_cons_self (ih.contains hbound)
  | noTarget _ _ ih =>
    rw [Node.declared_assignment, Node.assigned_assignment]
    exact ih.mono (List.Subset.refl _) (List.subset_cons_self _ _)
  | @noLeft env after op left right l e events _ ih =>
    rw [Node.declared_binary, Node.assigned_binary]
    exact ih.mono (List.subset_append_left _ _) (List.subset_append_left _ _)
  | @binary env between after op left right l x y events more _ _ ihleft ihright
  | @noRight env between after op left right l x e events more _ _ ihleft ihright =>
    rw [Node.declared_binary, Node.assigned_binary]
    exact (ihleft.mono (List.subset_append_left _ _) (List.subset_append_left _ _)).trans
      (ihright.mono (List.subset_append_right _ _) (List.subset_append_right _ _))

/-- **Evaluation touches only what the tree names.**  Whatever the tree and the environment, and
whether the tree has a value or not: what was bound is still bound; what is bound now and was not
is declared in the tree; a name that is neither declared nor assigned to in the tree stays what it
is; a name that was bound, and is not assigned to, keeps its value, even if the tree declares it;
and a tree that declares nothing and assigns nothing leaves the environment as it is. -/
theorem evaluate_touches (node : Node) (env : Environment) :
    let after := (evaluate node env).environment
    (∀ name, env.contains name = true → after.contains name = true) ∧
    (∀ name, after.contains name = true → env.contains name = false → name ∈ node.declared) ∧
    (∀ name, name ∉ node.declared → name ∉ node.assigned → after.get? name = env.get? name) ∧
    (∀ name, env.contains name = true → name ∉ node.assigned → after.get? name = env.get? name) ∧
    (node.declared = [] → node.assigned = [] → after = env) := by
  have hchanges := changesTo_of_evaluates (evaluates node env)
  refine ⟨fun _ => hchanges.contains, fun _ => hchanges.mem_declared, fun _ => hchanges.get?_eq,
    fun _ => hchanges.get?_eq_of_contains, fun hdeclared hassigned => ?_⟩
  rw [hdeclared, hassigned] at hchanges
  exact hchanges.eq

end Reckoner
