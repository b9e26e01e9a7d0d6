import Reckoner.Proofs.Actions
import Reckoner.Session

/-!
# The log as a journal

What is logged about a name tells its history.  The first binding that is logged is that of its
declaration, and all others are assignments; the name is declared exactly if something was logged
about it, and its value is the one that was logged last.  This is so whenever one looks, also in the
middle of a statement and after one that failed.

A binding and its entry in the log are one step: nothing can look at the environment between them.
So one may look after each of the actions that a tree asks for, and after each tree.  That the
journal is right is not a matter of single actions, because a declaration relies on the check in
front of it, and an assignment on a check with a whole tree behind it; it is proved tree by tree.

## Main definitions

* `Event.binds`, `bindings` — what was logged about a name.
* `IsJournalOf` — that what was logged about a name is its history.
* `Machine.trail`, `Machine.points` — where one may look while trees are evaluated.
* `Machine.Grows` — that nothing was unbound, and nothing taken out of the log.

## Main results

* `IsJournalOf.declare`, `IsJournalOf.assign` — a declaration of a name that is free, and an
  assignment to one that is bound, leave the log a journal.
* `Machine.isJournaled_trail` — the actions of a tree leave the log a journal.
* `Machine.exists_log_eq_of_points` — one may look whenever an event has been logged.
* `Session.runStatements_journaled` — **the log is a journal of the environment wherever one
  looks.**
-/

namespace Reckoner

/-! ### Journals -/

namespace Event

/-- Whether an event is a binding of the given name. -/
def binds (name : String) : Event → Bool
  | declare found _ | assign found _ => found == name
  | evaluate _ | unreadable _ => false

/-- The value that a name was bound to. -/
def value? : Event → Option Float
  | declare _ value | assign _ value => some value
  | evaluate _ | unreadable _ => none

end Event

/-- Whether an action binds a name. -/
def Action.isBinding : Action → Bool
  | assign _ | declare _ => true
  | push _ | load .. | checkDeclared .. | checkUndeclared .. | apply _ | refuse .. => false

/-- What was logged about a name. -/
def bindings (log : List Event) (name : String) : List Event := log.filter (Event.binds name)

/-- What was logged about a name is its history: it was declared at first and then assigned to, if
there was anything; it is bound if there was; and it has the value that was logged last. -/
structure IsJournalOf (log : List Event) (env : Environment) (name : String) : Prop where
  shape : bindings log name = [] ∨ ∃ (first : Float) (values : List Float),
    bindings log name = .declare name first :: values.map (Event.assign name)
  bound_iff : env.contains name = true ↔ bindings log name ≠ []
  value_eq : env.get? name = (bindings log name).getLast?.bind Event.value?

section Journals

variable {log : List Event} {env : Environment} {name other : String} {event : Event}

theorem bindings_append_of_binds (h : event.binds name = true) :
    bindings (log ++ [event]) name = bindings log name ++ [event] := by
  simp [bindings, h]

theorem bindings_append_of_not_binds (h : event.binds name = false) :
    bindings (log ++ [event]) name = bindings log name := by
  simp [bindings, h]

theorem isJournalOf_empty (name : String) : IsJournalOf [] .empty name :=
  ⟨.inl rfl, by simp [bindings], by simp [bindings]⟩

/-- What becomes of one name is no matter to the history of the others. -/
theorem IsJournalOf.of_ne (h : IsJournalOf log env other) (hne : name ≠ other) (value : Float)
    (hevent : event.binds other = false) :
    IsJournalOf (log ++ [event]) (env.set name value) other := by
  obtain ⟨hshape, hbound, hvalue⟩ := h
  refine ⟨?_, ?_, ?_⟩
  · rw [bindings_append_of_not_binds hevent]
    exact hshape
  · rw [bindings_append_of_not_binds hevent, Environment.contains_set, beq_false_of_ne hne,
      Bool.false_or]
    exact hbound
  · rw [bindings_append_of_not_binds hevent, Environment.get?_set, if_neg hne]
    exact hvalue

/-- What is bound to the value that is logged has that value. -/
theorem isJournalOf_append {value : Float} (hbinds : event.binds name = true)
    (hvalue : event.value? = some value)
    (hshape : ∃ (first : Float) (values : List Float), bindings log name ++ [event] =
      .declare name first :: values.map (Event.assign name)) :
    IsJournalOf (log ++ [event]) (env.set name value) name := by
  refine ⟨.inr ?_, ?_, ?_⟩
  · rw [bindings_append_of_binds hbinds]
    exact hshape
  · rw [bindings_append_of_binds hbinds]
    simp [Environment.contains_set]
  · rw [bindings_append_of_binds hbinds]
    simp [hvalue]

/-- A name that is free may be declared. -/
theorem IsJournalOf.declare (h : ∀ other, IsJournalOf log env other)
    (hfree : env.contains name = false) (value : Float) (other : String) :
    IsJournalOf (log ++ [.declare name value]) (env.set name value) other := by
  by_cases hne : name = other
  · subst hne
    have hnone : bindings log name = [] := by
      rw [← Bool.not_eq_true, (h name).bound_iff] at hfree
      exact Decidable.not_not.1 hfree
    exact isJournalOf_append (beq_self_eq_true name) rfl ⟨value, [], by rw [hnone]; rfl⟩
  · exact (h other).of_ne hne value (beq_false_of_ne hne)

/-- A name that is bound may be assigned to. -/
theorem IsJournalOf.assign (h : ∀ other, IsJournalOf log env other)
    (hbound : env.contains name = true) (value : Float) (other : String) :
    IsJournalOf (log ++ [.assign name value]) (env.set name value) other := by
  by_cases hne : name = other
  · subst hne
    refine isJournalOf_append (beq_self_eq_true name) rfl ?_
    rcases (h name).shape with hnone | ⟨first, values, hsome⟩
    · exact absurd hnone ((h name).bound_iff.1 hbound)
    · exact ⟨first, values ++ [value], by rw [hsome]; simp⟩
  · exact (h other).of_ne hne value (beq_false_of_ne hne)

end Journals

/-! ### Where one may look -/

namespace Machine

/-- The log of a machine is a journal of its environment. -/
def IsJournaled (m : Machine) : Prop := ∀ name, IsJournalOf m.log m.environment name

/-- What actions leave, one after the other, up to the first that fails. -/
def trail (m : Machine) : List Action → List Machine
  | [] => []
  | action :: actions =>
    match action.step m with
    | .ok m' => m' :: m'.trail actions
    | .error _ => []

/-- What is left when a tree has been evaluated as far as possible: the values that were to be used
are forgotten. -/
def afterTree (m : Machine) (node : Node) : Machine :=
  { (m.trail node.actions).getLastD m with stack := [] }

/-- Where one may look while trees are evaluated one after the other: before the first, after each
action, and after each tree. -/
def points (m : Machine) : List Node → List Machine
  | [] => [m]
  | node :: nodes => m :: (m.trail node.actions ++ (m.afterTree node).points nodes)

/-- Nothing has been unbound and nothing taken out of the log. -/
structure Grows (m m' : Machine) : Prop where
  bound : ∀ name, m.environment.contains name = true → m'.environment.contains name = true
  log_prefix : m.log <+: m'.log

variable {m m' m'' : Machine}

theorem Grows.refl (m : Machine) : m.Grows m := ⟨fun _ => id, List.prefix_refl _⟩

theorem Grows.trans (h : m.Grows m') (h' : m'.Grows m'') : m.Grows m'' :=
  ⟨fun name hname => h'.bound name (h.bound name hname), h.log_prefix.trans h'.log_prefix⟩

/-- An action leaves the environment and the log alone, or it binds a name and logs that. -/
theorem step_cases {action : Action} (h : action.step m = .ok m') :
    (m'.environment = m.environment ∧ m'.log = m.log) ∨
    (∃ name value, action = .declare name ∧
      m' = ⟨m.stack, m.environment.set name value, m.log ++ [.declare name value]⟩) ∨
    (∃ name value, action = .assign name ∧
      m' = ⟨m.stack, m.environment.set name value, m.log ++ [.assign name value]⟩) := by
  obtain ⟨stack, env, log⟩ := m
  cases action with
  | push value =>
    cases h
    exact .inl ⟨rfl, rfl⟩
  | load name l =>
    rw [Action.step] at h
    split at h
    · cases h
      exact .inl ⟨rfl, rfl⟩
    · cases h
  | checkDeclared name l =>
    rw [Action.step] at h
    split at h
    · cases h
      exact .inl ⟨rfl, rfl⟩
    · cases h
  | checkUndeclared name l =>
    rw [Action.step] at h
    split at h
    · cases h
    · cases h
      exact .inl ⟨rfl, rfl⟩
  | assign name =>
    cases stack with
    | nil => cases h
    | cons value stack =>
      cases h
      exact .inr (.inr ⟨name, value, rfl, rfl⟩)
  | declare name =>
    cases stack with
    | nil => cases h
    | cons value stack =>
      cases h
      exact .inr (.inl ⟨name, value, rfl, rfl⟩)
  | apply op =>
    rcases stack with - | ⟨right, - | ⟨left, stack⟩⟩
    · cases h
    · cases h
    · cases h
      exact .inl ⟨rfl, rfl⟩
  | refuse construct l => cases h

/-- A name is found to be declared only where it is. -/
theorem of_step_checkDeclared {name : String} {l : Location}
    (h : (Action.checkDeclared name l).step m = .ok m') :
    m' = m ∧ m.environment.contains name = true := by
  rw [Action.step] at h
  split at h
  · next hbound =>
    cases h
    exact ⟨rfl, hbound⟩
  · cases h

/-- A name is found to be free only where it is. -/
theorem of_step_checkUndeclared {name : String} {l : Location}
    (h : (Action.checkUndeclared name l).step m = .ok m') :
    m' = m ∧ m.environment.contains name = false := by
  rw [Action.step] at h
  split at h
  · cases h
  · next hfree =>
    cases h
    exact ⟨rfl, Bool.eq_false_iff.2 hfree⟩

/-- No action unbinds anything or takes anything out of the log. -/
theorem grows_of_step {action : Action} (h : action.step m = .ok m') : m.Grows m' := by
  have hset : ∀ {name other : String} (value : Float), m.environment.contains other = true →
      (m.environment.set name value).contains other = true := by
    intro name other value hother
    rw [Environment.contains_set, Bool.or_eq_true]
    exact .inr hother
  rcases step_cases h with ⟨henv, hlog⟩ | ⟨name, value, -, rfl⟩ | ⟨name, value, -, rfl⟩
  · exact ⟨fun name hname => henv ▸ hname, hlog ▸ List.prefix_refl m.log⟩
  · exact ⟨fun other => hset value, List.prefix_append _ _⟩
  · exact ⟨fun other => hset value, List.prefix_append _ _⟩

/-! ### Trails -/

theorem trail_cons_of_ok {action : Action} (h : action.step m = .ok m') (actions : List Action) :
    m.trail (action :: actions) = m' :: m'.trail actions := by
  rw [trail, h]

theorem trail_cons_of_error {action : Action} {stop : Stop} (h : action.step m = .error stop)
    (actions : List Action) : m.trail (action :: actions) = [] := by
  rw [trail, h]

theorem run_cons_of_error {action : Action} {stop : Stop} (h : action.step m = .error stop)
    (actions : List Action) : m.run (action :: actions) = .error stop := by
  rw [run, List.foldlM_cons, h]
  rfl

/-- Actions that can all be carried out lead on to those behind them, and others to nothing. -/
theorem trail_append (m : Machine) (front actions : List Action) :
    m.trail (front ++ actions) = m.trail front ++
      match m.run front with
      | .ok m' => m'.trail actions
      | .error _ => [] := by
  induction front generalizing m with
  | nil => rfl
  | cons action front ih =>
    rw [List.cons_append]
    cases hstep : action.step m with
    | error stop =>
      rw [trail_cons_of_error hstep, trail_cons_of_error hstep, run_cons_of_error hstep]
      rfl
    | ok m' =>
      rw [trail_cons_of_ok hstep, trail_cons_of_ok hstep, run_cons hstep, ih, List.cons_append]

/-- What is left by actions that can all be carried out is the end of their trail. -/
theorem getLastD_trail_of_run {actions : List Action} (h : m.run actions = .ok m') :
    (m.trail actions).getLastD m = m' := by
  induction actions generalizing m with
  | nil =>
    cases h
    rfl
  | cons action actions ih =>
    cases hstep : action.step m with
    | error stop =>
      rw [run_cons_of_error hstep] at h
      cases h
    | ok between =>
      rw [run_cons hstep] at h
      rw [trail_cons_of_ok hstep, List.getLastD_cons]
      exact ih h

/-- The trail of actions one of which fails ends in front of that one. -/
theorem getLastD_trail_of_failsAt {actions : List Action} {env : Environment} {log : List Event}
    {e : EvalError} (h : m.FailsAt actions env log e) :
    ∃ stack, (m.trail actions).getLastD m = ⟨stack, env, log⟩ := by
  obtain ⟨before, failing, behind, stack, rfl, hrun, hstep⟩ := h
  refine ⟨stack, ?_⟩
  rw [trail_append, hrun]
  dsimp only
  rw [trail_cons_of_error hstep, List.append_nil]
  exact getLastD_trail_of_run hrun

/-- When a tree has been evaluated as far as possible, the environment is that which its evaluation
leaves, and the log has the bindings among its events. -/
theorem afterTree_eq (m : Machine) (node : Node) :
    m.afterTree node = ⟨[], (evaluate node m.environment).environment,
      m.log ++ (evaluate node m.environment).events.filter Event.isBinding⟩ := by
  have hcomes := m.comesTo_actions node
  rw [afterTree]
  rcases hresult : evaluate node m.environment with ⟨e | value, env, events⟩
  · rw [hresult] at hcomes
    obtain ⟨stack, hlast⟩ := getLastD_trail_of_failsAt hcomes
    rw [hlast]
  · rw [hresult] at hcomes
    rw [getLastD_trail_of_run hcomes]

/-- On its way, a machine only grows; and each place on the way grows into its end. -/
theorem trail_grows (m : Machine) (actions : List Action) :
    (m :: m.trail actions).Pairwise Grows ∧
      ∀ m' ∈ m :: m.trail actions, m'.Grows ((m.trail actions).getLastD m) := by
  induction actions generalizing m with
  | nil => exact ⟨List.pairwise_singleton _ _, List.forall_mem_singleton.2 (.refl m)⟩
  | cons action actions ih =>
    cases hstep : action.step m with
    | error stop =>
      rw [trail_cons_of_error hstep]
      exact ⟨List.pairwise_singleton _ _, List.forall_mem_singleton.2 (.refl m)⟩
    | ok m' =>
      have hgrows := grows_of_step hstep
      obtain ⟨hpairwise, hlast⟩ := ih m'
      rw [trail_cons_of_ok hstep, List.getLastD_cons]
      constructor
      · refine List.pairwise_cons.2 ⟨fun m'' hm'' => hgrows.trans ?_, hpairwise⟩
        rcases List.mem_cons.1 hm'' with rfl | hm''
        · exact .refl _
        · exact (List.pairwise_cons.1 hpairwise).1 m'' hm''
      · exact List.forall_mem_cons.2 ⟨hgrows.trans (hlast m' List.mem_cons_self), hlast⟩

/-- Every beginning of the log at the end of a trail is the log somewhere on the way: no action
binds more than one name. -/
theorem exists_log_eq_of_trail {actions : List Action} {log : List Event} (hm : m.log <+: log)
    (hlog : log <+: ((m.trail actions).getLastD m).log) :
    ∃ x ∈ m :: m.trail actions, x.log = log := by
  induction actions generalizing m with
  | nil => exact ⟨m, List.mem_cons_self, hm.eq_of_length_le hlog.length_le⟩
  | cons action actions ih =>
    by_cases heq : m.log = log
    · exact ⟨m, List.mem_cons_self, heq⟩
    cases hstep : action.step m with
    | error stop =>
      rw [trail_cons_of_error hstep] at hlog
      exact absurd (hm.eq_of_length_le hlog.length_le) heq
    | ok m' =>
      rw [trail_cons_of_ok hstep, List.getLastD_cons] at hlog
      have hgrows := (m'.trail_grows actions).2 m' List.mem_cons_self
      have hlt : m.log.length < log.length :=
        Nat.lt_of_le_of_ne hm.length_le fun hlength => heq (hm.eq_of_length hlength)
      have hm' : m'.log <+: log := by
        refine List.prefix_of_prefix_length_le hgrows.log_prefix hlog ?_
        rcases step_cases hstep with ⟨-, hsame⟩ | ⟨name, value, -, rfl⟩ | ⟨name, value, -, rfl⟩
        · rw [hsame]
          exact hm.length_le
        · rw [List.length_append]
          exact hlt
        · rw [List.length_append]
          exact hlt
      obtain ⟨x, hx, hxlog⟩ := ih hm' hlog
      rw [trail_cons_of_ok hstep]
      exact ⟨x, List.mem_cons_of_mem _ hx, hxlog⟩

theorem grows_of_run {actions : List Action} (h : m.run actions = .ok m') : m.Grows m' := by
  rw [← getLastD_trail_of_run h]
  exact (m.trail_grows actions).2 m List.mem_cons_self

/-! ### The log stays a journal -/

section Properties

variable {P : Machine → Prop} {action : Action} {front actions : List Action}

/-- What is true wherever one may look is true where the trail ends. -/
theorem of_getLastD_trail (hm : P m) (htrail : ∀ x ∈ m.trail actions, P x) :
    P ((m.trail actions).getLastD m) := by
  have hend : (m.trail actions).getLastD m ∈ m :: m.trail actions := List.getLastD_mem_cons
  rcases List.mem_cons.1 hend with heq | hmem
  · rw [heq]
    exact hm
  · exact htrail _ hmem

theorem of_run (hm : P m) (htrail : ∀ x ∈ m.trail actions, P x) (h : m.run actions = .ok m') :
    P m' := by
  rw [← getLastD_trail_of_run h]
  exact of_getLastD_trail hm htrail

theorem forall_trail_cons
    (h : ∀ m', action.step m = .ok m' → P m' ∧ ∀ x ∈ m'.trail actions, P x) :
    ∀ x ∈ m.trail (action :: actions), P x := by
  cases hstep : action.step m with
  | error stop =>
    rw [trail_cons_of_error hstep]
    exact List.forall_mem_nil P
  | ok m' =>
    rw [trail_cons_of_ok hstep]
    exact List.forall_mem_cons.2 (h m' hstep)

theorem forall_trail_append (hfront : ∀ x ∈ m.trail front, P x)
    (h : ∀ m', m.run front = .ok m' → ∀ x ∈ m'.trail actions, P x) :
    ∀ x ∈ m.trail (front ++ actions), P x := by
  rw [trail_append]
  refine List.forall_mem_append.2 ⟨hfront, ?_⟩
  cases hrun : m.run front with
  | ok m' => exact h m' hrun
  | error stop => exact List.forall_mem_nil P

end Properties

/-- What leaves the environment and the log alone does not disturb a journal. -/
theorem IsJournaled.congr (hm : m.IsJournaled) (henv : m'.environment = m.environment)
    (hlog : m'.log = m.log) : m'.IsJournaled := by
  intro name
  rw [henv, hlog]
  exact hm name

/-- The actions of a tree leave the log a journal, however many of them are carried out. -/
theorem isJournaled_trail (node : Node) (hm : m.IsJournaled) :
    ∀ x ∈ m.trail node.actions, x.IsJournaled := by
  -- an action that binds nothing may come last
  have hother : ∀ {m : Machine} {action : Action}, m.IsJournaled → action.isBinding = false →
      ∀ x ∈ m.trail [action], x.IsJournaled := by
    intro m action hm hbinds
    refine forall_trail_cons fun m' hstep => ⟨?_, List.forall_mem_nil _⟩
    rcases step_cases hstep with ⟨henv, hlog⟩ | ⟨name, value, rfl, -⟩ | ⟨name, value, rfl, -⟩
    · exact hm.congr henv hlog
    · cases hbinds
    · cases hbinds
  induction node using Node.evaluation_induction generalizing m with
  | number value l => exact hother hm rfl
  | reference name l => exact hother hm rfl
  | declaration name initial l ih =>
    rw [Node.actions]
    refine forall_trail_append (ih hm) fun m₁ hrun => ?_
    have hm₁ : m₁.IsJournaled := of_run hm (ih hm) hrun
    -- the name is free when it is declared, because it has been looked for just before
    refine forall_trail_cons fun m₂ hcheck => ?_
    obtain ⟨rfl, hfree⟩ := of_step_checkUndeclared hcheck
    refine ⟨hm₁, forall_trail_cons fun m₃ hstep => ⟨?_, List.forall_mem_nil _⟩⟩
    rcases step_cases hstep with ⟨henv, hlog⟩ | ⟨found, value, heq, rfl⟩ | ⟨found, value, heq, rfl⟩
    · exact hm₁.congr henv hlog
    · cases heq
      exact IsJournalOf.declare hm₁ hfree value
    · cases heq
  | assignment name target l ih =>
    rw [Node.actions]
    refine forall_trail_cons fun m₁ hcheck => ?_
    obtain ⟨rfl, hbound⟩ := of_step_checkDeclared hcheck
    refine ⟨hm, forall_trail_append (ih hm) fun m₂ hrun => ?_⟩
    have hm₂ : m₂.IsJournaled := of_run hm (ih hm) hrun
    -- the name was looked for before its new value, which cannot have unbound it
    have hbound₂ := (grows_of_run hrun).bound name hbound
    refine forall_trail_cons fun m₃ hstep => ⟨?_, List.forall_mem_nil _⟩
    rcases step_cases hstep with ⟨henv, hlog⟩ | ⟨found, value, heq, rfl⟩ | ⟨found, value, heq, rfl⟩
    · exact hm₂.congr henv hlog
    · cases heq
    · cases heq
      exact IsJournalOf.assign hm₂ hbound₂ value
  | binary op left right l ihleft ihright =>
    rw [Node.actions]
    refine forall_trail_append (ihleft hm) fun m₁ hleft => ?_
    have hm₁ : m₁.IsJournaled := of_run hm (ihleft hm) hleft
    refine forall_trail_append (ihright hm₁) fun m₂ hright => ?_
    exact hother (of_run hm₁ (ihright hm₁) hright) rfl
  | call callee args l => exact hother hm rfl
  | prototype signature => exact hother hm rfl
  | function signature body l => exact hother hm rfl

/-! ### Tree after tree -/

theorem isJournaled_afterTree (node : Node) (hm : m.IsJournaled) :
    (m.afterTree node).IsJournaled :=
  (of_getLastD_trail hm (isJournaled_trail node hm)).congr rfl rfl

theorem isJournaled_points (nodes : List Node) (hm : m.IsJournaled) :
    ∀ x ∈ m.points nodes, x.IsJournaled := by
  induction nodes generalizing m with
  | nil => exact List.forall_mem_singleton.2 hm
  | cons node nodes ih =>
    refine List.forall_mem_cons.2 ⟨hm, List.forall_mem_append.2 ⟨isJournaled_trail node hm, ?_⟩⟩
    exact ih (isJournaled_afterTree node hm)

/-- From tree to tree, a machine only grows. -/
theorem points_grow (m : Machine) (nodes : List Node) :
    (m.points nodes).Pairwise Grows ∧ ∀ x ∈ m.points nodes, m.Grows x := by
  induction nodes generalizing m with
  | nil => exact ⟨List.pairwise_singleton _ _, List.forall_mem_singleton.2 (.refl m)⟩
  | cons node nodes ih =>
    obtain ⟨hpairwise, hafter⟩ := ih (m.afterTree node)
    obtain ⟨htrail, hlast⟩ := m.trail_grows node.actions
    -- what comes after the tree has grown from all that came before
    have hcross : ∀ x ∈ m :: m.trail node.actions, ∀ y ∈ (m.afterTree node).points nodes,
        x.Grows y := by
      intro x hx y hy
      obtain ⟨hbound, hprefix⟩ := hlast x hx
      have hx' : x.Grows (m.afterTree node) := ⟨hbound, hprefix⟩
      exact hx'.trans (hafter y hy)
    have hpoints : (m :: m.trail node.actions ++ (m.afterTree node).points nodes).Pairwise Grows :=
      List.pairwise_append.2 ⟨htrail, hpairwise, hcross⟩
    exact ⟨hpoints, List.forall_mem_cons.2 ⟨.refl m, (List.pairwise_cons.1 hpoints).1⟩⟩

/-- Where one may look last is what evaluating the trees leaves. -/
theorem getLast?_points (m : Machine) (nodes : List Node) :
    let report := Session.runStatements nodes ⟨m.environment⟩
    ∃ x, (m.points nodes).getLast? = some x ∧ x.environment = report.session.environment ∧
      x.log = m.log ++ report.events.filter Event.isBinding := by
  induction nodes generalizing m with
  | nil => exact ⟨m, rfl, rfl, (List.append_nil _).symm⟩
  | cons node nodes ih =>
    obtain ⟨x, hlast, henv, hlog⟩ := ih (m.afterTree node)
    rw [afterTree_eq] at henv hlog
    refine ⟨x, ?_, henv, ?_⟩
    · rw [points, ← List.cons_append, List.getLast?_append, hlast]
      rfl
    · rw [hlog, Session.runStatements, List.filter_append, List.append_assoc]

/-- One may look whenever an event has been logged. -/
theorem exists_log_eq_of_points {m : Machine} {nodes : List Node} {log : List Event}
    (hm : m.log <+: log)
    (hlog : log <+: m.log ++
      (Session.runStatements nodes ⟨m.environment⟩).events.filter Event.isBinding) :
    ∃ x ∈ m.points nodes, x.log = log := by
  induction nodes generalizing m with
  | nil =>
    have hlog' : log <+: m.log := by simpa [Session.runStatements] using hlog
    exact ⟨m, List.mem_cons_self, hm.eq_of_length_le hlog'.length_le⟩
  | cons node nodes ih =>
    have hend : ((m.trail node.actions).getLastD m).log = (m.afterTree node).log := rfl
    have hafter : log <+: (m.afterTree node).log ++ (Session.runStatements nodes
        ⟨(m.afterTree node).environment⟩).events.filter Event.isBinding := by
      rw [afterTree_eq]
      rw [Session.runStatements, List.filter_append, ← List.append_assoc] at hlog
      exact hlog
    -- the beginning ends either before the first tree has been evaluated or behind that
    rcases List.prefix_or_prefix_of_prefix hafter (List.prefix_append _ _) with hwithin | hbehind
    · obtain ⟨x, hx, hxlog⟩ := exists_log_eq_of_trail hm (hend ▸ hwithin)
      exact ⟨x, List.mem_append_left _ hx, hxlog⟩
    · obtain ⟨x, hx, hxlog⟩ := ih hbehind hafter
      exact ⟨x, List.mem_cons_of_mem _ (List.mem_append_right _ hx), hxlog⟩

end Machine

open Machine

/-- **The log is a journal of the environment wherever one looks.**  Let trees be evaluated one
after the other, whatever they are, from the environment in which nothing is declared.  Before the
first, after each action that is carried out, and after each tree, whether it had a value or not,
what was logged about a name is nothing, or its declaration and then assignments; the name is bound
exactly if something was logged about it, and to the value logged last.  From one of these points to
any later one no name is unbound, and the log is only added to.  The last of them is what the
evaluation of the trees leaves, and for each event of the evaluation there is one at which the log
has come so far. -/
theorem Session.runStatements_journaled (nodes : List Node) :
    let points := (start .empty).points nodes
    let report := runStatements nodes .empty
    (∀ m ∈ points, ∀ name, IsJournalOf m.log m.environment name) ∧
      points.Pairwise Grows ∧
      (∃ last, points.getLast? = some last ∧ last.environment = report.session.environment ∧
        last.log = report.events.filter Event.isBinding) ∧
      ∀ front, front <+: report.events →
        ∃ m ∈ points, m.log = front.filter Event.isBinding := by
  refine ⟨isJournaled_points nodes isJournalOf_empty, (points_grow _ nodes).1,
    getLast?_points (start .empty) nodes, fun front hfront => ?_⟩
  exact exists_log_eq_of_points List.nil_prefix (hfront.filter _)

end Reckoner
