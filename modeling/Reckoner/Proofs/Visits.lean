import Reckoner.Proofs.Actions
import Reckoner.Proofs.Rules

/-!
# Visits

Evaluation goes through a tree from left to right and to each node before those below it, up to the
first node that fails.  It does not go below a call, and not into the body of a function.  So what
is logged when a node is visited lists the beginning of the tree in that order; and a binding is
logged when all of the tree whose value is bound has been visited, and nothing behind it.

Where an evaluation is, is said by the nodes that have been visited and the events that have been
logged when the turn of a tree comes.  Turns are composed: a turn in the evaluation of a tree whose
turn it is, is one in the evaluation of the whole.

## Main definitions

* `Node.preorder`, `Node.nodes` — the nodes that may be visited, in order, and all nodes.
* `Node.Reaches` — that in the course of an evaluation the turn of a tree comes.
* `Node.Fails`, `Node.Binds` — that a node itself fails, or binds a name, when its turn comes.
* `Node.StopsAfter`, `Node.BindsAfter` — the same of a node in the course of an evaluation.

## Main results

* `Node.Reaches.trans` — turns are composed.
* `visits_of_ok` — a tree with a value has been visited as a whole.
* `exists_stopsAfter`, `bindsAfter_of_isBinding` — every failure, and every binding, is that of a
  node at its turn.
* `evaluate_visits` — **the visits are the tree in order, up to the failure.**
-/

namespace Reckoner

/-! ### The nodes of a tree -/

/-- The nodes of a tree that an evaluation may visit, each in front of those below it.  The
arguments of a call are not visited, and neither is the body of a function. -/
def Node.preorder : Node → List Node
  | .number value l => [.number value l]
  | .reference name l => [.reference name l]
  | .declaration name initial l => .declaration name initial l :: initial.preorder
  | .assignment name value l => .assignment name value l :: value.preorder
  | .binary op left right l => .binary op left right l :: (left.preorder ++ right.preorder)
  | .call callee args l => [.call callee args l]
  | .prototype signature => [.prototype signature]
  | .function signature body l => [.function signature body l]

/-- All nodes of a tree, each in front of those below it. -/
def Node.nodes : Node → List Node
  | .number value l => [.number value l]
  | .reference name l => [.reference name l]
  | .declaration name initial l => .declaration name initial l :: initial.nodes
  | .assignment name value l => .assignment name value l :: value.nodes
  | .binary op left right l => .binary op left right l :: (left.nodes ++ right.nodes)
  | .call callee args l => .call callee args l :: args.flatMap Node.nodes
  | .prototype signature => [.prototype signature]
  | .function signature body l => .function signature body l :: body.nodes

/-- The shape of the node that is visited, if the event is a visit. -/
def Event.visit? : Event → Option Shape
  | evaluate shape => some shape
  | declare .. | assign .. | unreadable _ => none

@[simp] theorem Event.visit?_evaluate (shape : Shape) : (evaluate shape).visit? = some shape := rfl

@[simp] theorem Event.visit?_declare (name : String) (value : Float) :
    (declare name value).visit? = none := rfl

@[simp] theorem Event.visit?_assign (name : String) (value : Float) :
    (assign name value).visit? = none := rfl

namespace Node

/-- All nodes of a tree may be visited if every form in it has a meaning. -/
theorem nodes_eq_preorder {node : Node} (h : ∀ n ∈ node.preorder, n.refused? = none) :
    node.nodes = node.preorder := by
  induction node using evaluation_induction with
  | number value l => rw [nodes, preorder]
  | reference name l => rw [nodes, preorder]
  | declaration name initial l ih =>
    rw [preorder] at h
    rw [nodes, preorder, ih (List.forall_mem_cons.1 h).2]
  | assignment name target l ih =>
    rw [preorder] at h
    rw [nodes, preorder, ih (List.forall_mem_cons.1 h).2]
  | binary op left right l ihleft ihright =>
    rw [preorder] at h
    obtain ⟨hleft, hright⟩ := List.forall_mem_append.1 (List.forall_mem_cons.1 h).2
    rw [nodes, preorder, ihleft hleft, ihright hright]
  | call callee args l => cases h _ (List.mem_singleton_self _)
  | prototype signature => cases h _ (List.mem_singleton_self _)
  | function signature body l => cases h _ (List.mem_singleton_self _)

/-! ### Whose turn it is -/

/-- `node.Reaches env front earlier sub before`: in the course of the evaluation of `node` in the
environment `env`, the turn of the tree `sub` comes in the environment `before`, when the nodes
`front` have been visited and the events `earlier` have been logged. -/
structure Reaches (node : Node) (env : Environment) (front : List Node) (earlier : List Event)
    (sub : Node) (before : Environment) : Prop where
  /-- The nodes of the tree come next. -/
  nodes_next : front ++ sub.preorder <+: node.preorder
  /-- The nodes in front have been visited, each of them once. -/
  visits_earlier : earlier.filterMap Event.visit? = front.map shape
  /-- The events of its evaluation come next. -/
  events_next : earlier ++ (evaluate sub before).events <+: (evaluate node env).events

variable {node sub subsub : Node} {env before between : Environment} {front more : List Node}
  {earlier later : List Event}

namespace Reaches

theorem refl (node : Node) (env : Environment) : node.Reaches env [] [] node env :=
  ⟨List.prefix_refl _, rfl, List.prefix_refl _⟩

/-- Turns are composed. -/
theorem trans (h : node.Reaches env front earlier sub before)
    (h' : sub.Reaches before more later subsub between) :
    node.Reaches env (front ++ more) (earlier ++ later) subsub between := by
  refine ⟨?_, ?_, ?_⟩
  · rw [List.append_assoc]
    exact ((List.prefix_append_right_inj front).2 h'.nodes_next).trans h.nodes_next
  · rw [List.filterMap_append, List.map_append, h.visits_earlier, h'.visits_earlier]
  · rw [List.append_assoc]
    exact ((List.prefix_append_right_inj earlier).2 h'.events_next).trans h.events_next

/-- The turn of the first value comes right after that of the declaration. -/
theorem initial (name : String) (initial : Node) (l : Location) (env : Environment) :
    (declaration name initial l).Reaches env [declaration name initial l]
      [.evaluate .declaration] initial env := by
  refine ⟨List.prefix_refl _, rfl, ?_⟩
  rw [evaluate_declaration]
  rcases evaluate initial env with ⟨e | value, after, events⟩
  · exact List.prefix_refl _
  · dsimp only
    split
    · exact List.prefix_refl _
    · exact List.prefix_append (.evaluate .declaration :: events) _

/-- The turn of the new value comes right after that of the assignment, if the name is bound. -/
theorem value {name : String} (hbound : env.contains name = true) (target : Node) (l : Location) :
    (assignment name target l).Reaches env [assignment name target l]
      [.evaluate .assignment] target env := by
  refine ⟨List.prefix_refl _, rfl, ?_⟩
  rw [evaluate_assignment, if_pos hbound]
  rcases evaluate target env with ⟨e | value, after, events⟩
  · exact List.prefix_refl _
  · exact List.prefix_append (.evaluate .assignment :: events) _

/-- The turn of the left operand comes right after that of the operation. -/
theorem left (op : BinaryOperator) (left right : Node) (l : Location) (env : Environment) :
    (binary op left right l).Reaches env [binary op left right l] [.evaluate (.binary op)]
      left env := by
  refine ⟨?_, rfl, ?_⟩
  · exact List.prefix_append (binary op left right l :: left.preorder) _
  rw [evaluate_binary]
  rcases evaluate left env with ⟨e | x, between, events⟩
  · exact List.prefix_refl _
  · dsimp only
    rcases evaluate right between with ⟨e | y, after, more⟩
    · exact List.prefix_append (.evaluate (.binary op) :: events) _
    · exact List.prefix_append (.evaluate (.binary op) :: events) _

/-- The turn of the right operand comes when all of the left one has been visited. -/
theorem right {left : Node} {x : Float} {events : List Event}
    (hleft : evaluate left env = ⟨.ok x, between, events⟩)
    (hvisits : events.filterMap Event.visit? = left.preorder.map shape) (op : BinaryOperator)
    (right : Node) (l : Location) :
    (binary op left right l).Reaches env (binary op left right l :: left.preorder)
      (.evaluate (.binary op) :: events) right between := by
  refine ⟨List.prefix_refl _, ?_, ?_⟩
  · rw [List.filterMap_cons_some (Event.visit?_evaluate _), hvisits]
    rfl
  rw [evaluate_binary, hleft]
  dsimp only
  rcases evaluate right between with ⟨e | y, after, more⟩
  · exact List.prefix_refl _
  · exact List.prefix_refl _

end Reaches

end Node

open Node

variable {node : Node} {env : Environment}

/-! ### Trees with a value -/

/-- A tree with a value has been visited as a whole, and every form in it has a meaning. -/
theorem visits_of_ok {result : Evaluation.Result Float} {value : Float}
    (h : Evaluates env node result) (hvalue : result.outcome = .ok value) :
    result.events.filterMap Event.visit? = node.preorder.map shape ∧
      ∀ n ∈ node.preorder, n.refused? = none := by
  induction h generalizing value with
  | number | reference => exact ⟨rfl, List.forall_mem_singleton.2 rfl⟩
  | declaration _ _ ih | assignment _ _ ih =>
    obtain ⟨hvisits, hmeaning⟩ := ih rfl
    exact ⟨by simp [preorder, hvisits, shape], List.forall_mem_cons.2 ⟨rfl, hmeaning⟩⟩
  | binary _ _ ihleft ihright =>
    obtain ⟨hvisits, hmeaning⟩ := ihleft rfl
    obtain ⟨hvisits', hmeaning'⟩ := ihright rfl
    refine ⟨by simp [preorder, hvisits, hvisits', shape], ?_⟩
    exact List.forall_mem_cons.2 ⟨rfl, List.forall_mem_append.2 ⟨hmeaning, hmeaning'⟩⟩
  | unbound | duplicate | noInitial | undeclared | noTarget | noLeft | noRight | refused =>
    cases hvalue

/-! ### Failures -/

namespace Node

/-- `node.Fails before e visited`: when its turn comes in the environment `before`, the node itself
fails with `e`, and not one below it; the nodes `visited` have been visited by then, it first. -/
inductive Fails (before : Environment) : Node → EvalError → List Node → Prop
  /-- A name that is not bound has no value. -/
  | reference {name : String} {l : Location} : before.get? name = none →
      Fails before (.reference name l) (.undefinedVariable name l) [.reference name l]
  /-- A name that is not bound is given no new value, and that is not even looked at. -/
  | assignment {name : String} {target : Node} {l : Location} : before.contains name = false →
      Fails before (.assignment name target l) (.undefinedVariable name l)
        [.assignment name target l]
  /-- A name that is bound by the time there is a first value for it cannot be declared. -/
  | declaration {name : String} {initial : Node} {l : Location} {value : Float}
      {after : Environment} {events : List Event} :
      evaluate initial before = ⟨.ok value, after, events⟩ → after.contains name = true →
      Fails before (.declaration name initial l) (.duplicateDeclaration name l)
        (.declaration name initial l :: initial.preorder)
  /-- A form without a meaning is refused. -/
  | refused {node : Node} {construct : Construct} {l : Location} :
      node.refused? = some (construct, l) → Fails before node (.notEvaluable construct l) [node]

/-- What a node that itself fails has logged are the visits up to then, beginning with its own. -/
theorem Fails.visits {e : EvalError} {visited : List Node} (h : node.Fails env e visited) :
    visited <+: node.preorder ∧
      (evaluate node env).events.filterMap Event.visit? = visited.map shape := by
  cases h with
  | reference hnone =>
    rw [(Evaluates.unbound hnone).evaluate_eq]
    exact ⟨List.prefix_refl _, rfl⟩
  | @assignment name target l hfree =>
    rw [(Evaluates.undeclared hfree).evaluate_eq]
    exact ⟨List.prefix_append [.assignment name target l] target.preorder, rfl⟩
  | declaration hinitial hbound =>
    have hevaluates := evaluates_iff.2 hinitial
    rw [(Evaluates.duplicate hevaluates hbound).evaluate_eq]
    refine ⟨List.prefix_refl _, ?_⟩
    rw [List.filterMap_cons_some (Event.visit?_evaluate _), (visits_of_ok hevaluates rfl).1]
    rfl
  | refused hrefused =>
    rw [(Evaluates.refused hrefused).evaluate_eq]
    refine ⟨?_, rfl⟩
    cases node <;> exact List.prefix_append [_] _

/-- `node.StopsAfter env e visited events`: the evaluation of `node` in `env` ends with a node that
itself fails with `e`, when the nodes `visited` have been visited and the events `events` logged. -/
def StopsAfter (node : Node) (env : Environment) (e : EvalError) (visited : List Node)
    (events : List Event) : Prop :=
  ∃ (front : List Node) (earlier : List Event) (failing : Node) (before : Environment)
    (last : List Node), node.Reaches env front earlier failing before ∧
      failing.Fails before e last ∧ visited = front ++ last ∧
      events = earlier ++ (evaluate failing before).events

/-- What fails at its turn makes the whole fail. -/
theorem StopsAfter.of_reaches {sub : Node} {before : Environment} {front visited : List Node}
    {earlier events : List Event} {e : EvalError} (h : node.Reaches env front earlier sub before)
    (hstops : sub.StopsAfter before e visited events) :
    node.StopsAfter env e (front ++ visited) (earlier ++ events) := by
  obtain ⟨more, later, failing, between, last, hreaches, hfails, rfl, rfl⟩ := hstops
  exact ⟨front ++ more, earlier ++ later, failing, between, last, h.trans hreaches, hfails,
    (List.append_assoc ..).symm, (List.append_assoc ..).symm⟩

/-- A node that itself fails is the last whose turn comes. -/
theorem Fails.stopsAfter {e : EvalError} {visited : List Node} {result : Evaluation.Result Float}
    (h : node.Fails env e visited) (hresult : Evaluates env node result) :
    node.StopsAfter env e visited result.events :=
  ⟨[], [], node, env, visited, .refl node env, h, rfl,
    congrArg Evaluation.Result.events hresult.evaluate_eq.symm⟩

end Node

/-- If there is no value, a node fails when its turn comes. -/
theorem exists_stopsAfter {result : Evaluation.Result Float} {e : EvalError}
    (h : Evaluates env node result) (herror : result.outcome = .error e) :
    ∃ visited, node.StopsAfter env e visited result.events := by
  induction h generalizing e with
  | unbound hnone =>
    cases herror
    exact ⟨_, (Fails.reference hnone).stopsAfter (.unbound hnone)⟩
  | undeclared hfree =>
    cases herror
    exact ⟨_, (Fails.assignment hfree).stopsAfter (.undeclared hfree)⟩
  | duplicate hinitial hbound _ =>
    cases herror
    exact ⟨_, (Fails.declaration hinitial.evaluate_eq hbound).stopsAfter
      (.duplicate hinitial hbound)⟩
  | refused hrefused =>
    cases herror
    exact ⟨_, (Fails.refused hrefused).stopsAfter (.refused hrefused)⟩
  | noInitial _ ih =>
    obtain ⟨visited, hstops⟩ := ih herror
    exact ⟨_, .of_reaches (.initial ..) hstops⟩
  | noTarget hbound _ ih =>
    obtain ⟨visited, hstops⟩ := ih herror
    exact ⟨_, .of_reaches (.value hbound ..) hstops⟩
  | noLeft _ ih =>
    obtain ⟨visited, hstops⟩ := ih herror
    exact ⟨_, .of_reaches (.left ..) hstops⟩
  | noRight hleft _ _ ih =>
    obtain ⟨visited, hstops⟩ := ih herror
    exact ⟨_, .of_reaches (.right hleft.evaluate_eq (visits_of_ok hleft rfl).1 ..) hstops⟩
  | number | reference | declaration | assignment | binary => cases herror

/-! ### Bindings -/

namespace Node

/-- `node.Binds before target event`: when its turn comes in the environment `before`, the node
binds its name to the value of the tree `target` below it, and the event is that binding. -/
inductive Binds (before : Environment) : Node → Node → Event → Prop
  | declaration {name : String} {initial : Node} {l : Location} {value : Float} :
      (evaluate initial before).outcome = .ok value →
      Binds before (.declaration name initial l) initial (.declare name value)
  | assignment {name : String} {target : Node} {l : Location} {value : Float} :
      (evaluate target before).outcome = .ok value →
      Binds before (.assignment name target l) target (.assign name value)

/-- `node.BindsAfter env earlier event`: in the evaluation of `node` in `env`, a node whose turn
comes binds its name, and the event is that binding.  The events `earlier` in front of it end with
those of the tree whose value is bound, right behind the visit of that node. -/
def BindsAfter (node : Node) (env : Environment) (earlier : List Event) (event : Event) : Prop :=
  ∃ (front : List Node) (first : List Event) (binder : Node) (before : Environment)
    (target : Node), node.Reaches env front first binder before ∧
      binder.Binds before target event ∧
      earlier = first ++ .evaluate binder.shape :: (evaluate target before).events

/-- What is bound at the turn of a tree is bound in the course of the whole evaluation. -/
theorem BindsAfter.of_reaches {sub : Node} {before : Environment} {front : List Node}
    {first earlier : List Event} {event : Event} (h : node.Reaches env front first sub before)
    (hbinds : sub.BindsAfter before earlier event) :
    node.BindsAfter env (first ++ earlier) event := by
  obtain ⟨more, later, binder, between, target, hreaches, hbinds, rfl⟩ := hbinds
  exact ⟨front ++ more, first ++ later, binder, between, target, h.trans hreaches, hbinds,
    (List.append_assoc ..).symm⟩

/-- A node that binds its name does so when the tree whose value it binds has been evaluated. -/
theorem Binds.bindsAfter {target : Node} {event : Event} {result : Evaluation.Result Float}
    (h : node.Binds env target event) (hresult : Evaluates env target result) :
    node.BindsAfter env (.evaluate node.shape :: result.events) event :=
  ⟨[], [], node, env, target, .refl node env, h,
    congrArg (.evaluate node.shape :: ·.events) hresult.evaluate_eq.symm⟩

end Node

/-- A beginning of joined lists ends in the first of them or in the second. -/
theorem concat_prefix_append {α : Type} {xs as bs : List α} {x : α} (h : xs ++ [x] <+: as ++ bs) :
    xs ++ [x] <+: as ∨ ∃ ys, xs = as ++ ys ∧ ys ++ [x] <+: bs := by
  rcases List.prefix_or_prefix_of_prefix h (List.prefix_append as bs) with hwithin | hbehind
  · exact .inl hwithin
  rcases List.prefix_concat_iff.1 hbehind with heq | ⟨ys, rfl⟩
  · exact .inl (heq ▸ List.prefix_refl _)
  · rw [List.append_assoc] at h
    exact .inr ⟨ys, rfl, (List.prefix_append_right_inj as).1 h⟩

/-- A binding does not come first: a node has been visited in front of it. -/
theorem exists_of_visit {shape : Shape} {earlier events : List Event} {event : Event}
    (h : earlier ++ [event] <+: .evaluate shape :: events) (hbinding : event.isBinding = true) :
    ∃ later, earlier = .evaluate shape :: later ∧ later ++ [event] <+: events := by
  cases earlier with
  | nil =>
    obtain ⟨rfl, -⟩ := List.cons_prefix_cons.1 h
    cases hbinding
  | cons first later =>
    obtain ⟨rfl, hlater⟩ := List.cons_prefix_cons.1 h
    exact ⟨later, rfl, hlater⟩

/-- Every binding that is logged is that of a node whose turn has come. -/
theorem bindsAfter_of_isBinding {result : Evaluation.Result Float} {earlier : List Event}
    {event : Event} (h : Evaluates env node result) (hevents : earlier ++ [event] <+: result.events)
    (hbinding : event.isBinding = true) : node.BindsAfter env earlier event := by
  induction h generalizing earlier with
  | number | reference | unbound | undeclared | refused =>
    obtain ⟨later, rfl, hlater⟩ := exists_of_visit hevents hbinding
    simp at hlater
  | duplicate _ _ ih | noInitial _ ih =>
    obtain ⟨later, rfl, hlater⟩ := exists_of_visit hevents hbinding
    exact .of_reaches (.initial ..) (ih hlater)
  | noTarget hbound _ ih =>
    obtain ⟨later, rfl, hlater⟩ := exists_of_visit hevents hbinding
    exact .of_reaches (.value hbound ..) (ih hlater)
  | noLeft _ ih =>
    obtain ⟨later, rfl, hlater⟩ := exists_of_visit hevents hbinding
    exact .of_reaches (.left ..) (ih hlater)
  | binary hleft _ ihleft ihright | noRight hleft _ ihleft ihright =>
    obtain ⟨later, rfl, hlater⟩ := exists_of_visit hevents hbinding
    rcases concat_prefix_append hlater with hlater | ⟨more, rfl, hmore⟩
    · exact .of_reaches (.left ..) (ihleft hlater)
    · exact .of_reaches (.right hleft.evaluate_eq (visits_of_ok hleft rfl).1 ..) (ihright hmore)
  | declaration hinitial _ ih =>
    have hvalue := congrArg Evaluation.Result.outcome hinitial.evaluate_eq
    obtain ⟨later, rfl, hlater⟩ := exists_of_visit hevents hbinding
    rcases List.prefix_concat_iff.1 hlater with heq | hlater
    · obtain ⟨rfl, hevent⟩ := List.append_inj' heq rfl
      cases hevent
      exact (Binds.declaration hvalue).bindsAfter hinitial
    · exact .of_reaches (.initial ..) (ih hlater)
  | assignment hbound htarget ih =>
    have hvalue := congrArg Evaluation.Result.outcome htarget.evaluate_eq
    obtain ⟨later, rfl, hlater⟩ := exists_of_visit hevents hbinding
    rcases List.prefix_concat_iff.1 hlater with heq | hlater
    · obtain ⟨rfl, hevent⟩ := List.append_inj' heq rfl
      cases hevent
      exact (Binds.assignment hvalue).bindsAfter htarget
    · exact .of_reaches (.value hbound ..) (ih hlater)

/-! ### The whole evaluation -/

/-- **The visits are the tree in order, up to the failure.**  Whatever the tree and the environment,
what is logged when nodes are visited lists the shapes of a beginning of the tree.  If the tree has
a value, nothing of it is left out, each of its nodes has been visited once, and none of them is a
form without a meaning.  If it has none, some node fails when its turn comes, and then the last node
that has been visited is this one; or, if it was to declare a name that is bound by then, the last
one of its first value.  And a binding is logged right behind the events of the tree whose value is
bound, which come right behind the visit of the node that binds. -/
theorem evaluate_visits (node : Node) (env : Environment) :
    let result := evaluate node env
    (∃ visited, visited <+: node.preorder ∧
      result.events.filterMap Event.visit? = visited.map Node.shape ∧
      match result.outcome with
      | .ok _ =>
        visited = node.preorder ∧ visited = node.nodes ∧ ∀ n ∈ visited, n.refused? = none
      | .error e => node.StopsAfter env e visited result.events) ∧
    ∀ earlier event, earlier ++ [event] <+: result.events → event.isBinding = true →
      node.BindsAfter env earlier event := by
  intro result
  have hevaluates : Evaluates env node result := evaluates node env
  refine ⟨?_, fun _ _ => bindsAfter_of_isBinding hevaluates⟩
  cases hresult : result.outcome with
  | ok value =>
    obtain ⟨hvisits, hmeaning⟩ := visits_of_ok hevaluates hresult
    exact ⟨node.preorder, List.prefix_refl _, hvisits, rfl, (nodes_eq_preorder hmeaning).symm,
      hmeaning⟩
  | error e =>
    obtain ⟨visited, hstops⟩ := exists_stopsAfter hevaluates hresult
    refine ⟨visited, ?_, ?_, hstops⟩
    · obtain ⟨front, earlier, failing, before, last, hreaches, hfails, rfl, -⟩ := hstops
      exact ((List.prefix_append_right_inj front).2 hfails.visits.1).trans hreaches.nodes_next
    · obtain ⟨front, earlier, failing, before, last, hreaches, hfails, rfl, hevents⟩ := hstops
      rw [hevents, List.filterMap_append, List.map_append, hreaches.visits_earlier,
        hfails.visits.2]

example : (evaluate (.binary .add (.assignment "x" (.number 1 ⟨1, 6⟩) ⟨1, 2⟩)
    (.reference "y" ⟨1, 11⟩) ⟨1, 9⟩) .empty).events.filterMap Event.visit? =
      [.binary .add, .assignment] := by decide +kernel

end Reckoner
