import Reckoner.Proofs.Blame
import Reckoner.Proofs.Yields
import Reckoner.Session

/-!
# Where names come from

Only a declaration declares a name, and only if it has a value.  Evaluation by itself does not see
to that: a declaration inside of a tree would declare its name whether the tree has a value or not.
But there is none inside of a tree that was read, because the grammar has declarations, functions
and announcements nowhere but at the root of a statement.

## Main definitions

* `Node.IsPlain`, `Node.IsPlainBelow` — trees without such nodes, and trees with such a node at most
  at the root.
* `Outcome.Changes` — what an outcome has to do with the names that are declared.
* `Session.Passes` — environments and the outcomes between them, one after the other.

## Main results

* `Node.Yields.isPlainBelow` — what is read is plain below its root.
* `Node.IsPlain.sameNames` — evaluating a plain tree declares nothing.
* `Node.IsPlainBelow.changes` — what one statement does to the names.
* `Session.enter_passes` — **only a declaration that has a value declares a name.**
-/

namespace Reckoner

/-! ### Plain trees -/

/-- The tree is made of numbers, names, assignments, operations and calls only. -/
inductive Node.IsPlain : Node → Prop
  | number {value : Float} {l : Location} : IsPlain (.number value l)
  | reference {name : String} {l : Location} : IsPlain (.reference name l)
  | assignment {name : String} {value : Node} {l : Location} : IsPlain value →
      IsPlain (.assignment name value l)
  | binary {op : BinaryOperator} {left right : Node} {l : Location} : IsPlain left →
      IsPlain right → IsPlain (.binary op left right l)
  | call {callee : String} {args : List Node} {l : Location} : (∀ arg ∈ args, IsPlain arg) →
      IsPlain (.call callee args l)

/-- The tree is plain but for its root, which may declare, define or announce something. -/
inductive Node.IsPlainBelow : Node → Prop
  | declaration {name : String} {initial : Node} {l : Location} : IsPlain initial →
      IsPlainBelow (.declaration name initial l)
  | function {signature : Signature} {body : Node} {l : Location} : IsPlain body →
      IsPlainBelow (.function signature body l)
  | prototype {signature : Signature} : IsPlainBelow (.prototype signature)
  | expression {node : Node} : IsPlain node → IsPlainBelow node

namespace Grammar

/-- The trees of a reading are plain. -/
def Reading.IsPlain : Reading → Prop
  | tree node => node.IsPlain
  | arguments nodes => ∀ node ∈ nodes, node.IsPlain

/-- What an expression is read as is plain. -/
theorem Yields.isPlain {reading : Reading} {ts : List Token} (h : Yields reading ts) :
    reading.IsPlain := by
  induction h with
  | number => exact .number
  | reference => exact .reference
  | parenthesized _ ih => exact ih
  | assignment _ ih => exact .assignment ih
  | binary _ _ ihleft ihright => exact .binary ihleft ihright
  | call _ ih => exact .call ih
  | noArgument => exact List.forall_mem_nil _
  | lastArgument _ ih => exact List.forall_mem_singleton.2 ih
  | moreArguments _ _ ih ihmore => exact List.forall_mem_cons.2 ⟨ih, ihmore⟩

end Grammar

/-- What a statement is read as is plain below its root. -/
theorem Node.Yields.isPlainBelow {node : Node} {ts : List Token} (h : node.Yields ts) :
    node.IsPlainBelow := by
  cases h with
  | declaration => exact .declaration .number
  | initialized hinitial => exact .declaration hinitial.isPlain
  | function _ hbody => exact .function hbody.isPlain
  | prototype _ => exact .prototype
  | expression hexpression => exact .expression hexpression.isPlain

/-- The statements of a line are plain below their roots. -/
theorem Script.isPlainBelow_of_mem {line : String} {node : Node}
    (h : node ∈ (ofString line).statements) : node.IsPlainBelow := by
  rw [ofString] at h
  cases htokens : (Source.ofString line).tokenize with
  | error e =>
    rw [htokens] at h
    cases h
  | ok s =>
    rw [htokens] at h
    obtain ⟨t, u, -, hrun⟩ := (read_rests s).1 node h
    obtain ⟨ts, -, hyields, -⟩ := Grammar.yields_of_statement hrun
    exact hyields.isPlainBelow

/-! ### What evaluation declares -/

/-- Evaluating a plain tree declares nothing, whether it has a value or not. -/
theorem Node.IsPlain.sameNames {node : Node} (h : node.IsPlain) (env : Environment) :
    (evaluate node env).environment.SameNames env := by
  induction h generalizing env with
  | number => exact .refl env
  | reference =>
    rw [evaluate_reference]
    split
    · exact .refl env
    · exact .refl env
  | @assignment name value l _ ih =>
    rw [evaluate_assignment]
    split
    · next hbound =>
      have hafter := ih env
      rcases hvalue : evaluate value env with ⟨e | x, after, events⟩
      · rw [hvalue] at hafter
        exact hafter
      · rw [hvalue] at hafter
        -- the name was declared before the value was evaluated, and still is
        have hstill : after.contains name = true := (hafter name).trans hbound
        exact (Environment.sameNames_set hstill x).trans hafter
    · exact .refl env
  | @binary op left right l _ _ ihleft ihright =>
    rw [evaluate_binary]
    have hbetween := ihleft env
    rcases hleft : evaluate left env with ⟨e | x, between, events⟩
    · rw [hleft] at hbetween
      exact hbetween
    · rw [hleft] at hbetween
      have hafter := (ihright between).trans hbetween
      dsimp only
      rcases hright : evaluate right between with ⟨e | y, after, more⟩
      · rw [hright] at hafter
        exact hafter
      · rw [hright] at hafter
        exact hafter
  | call => exact .refl env

/-! ### What outcomes change -/

/-- What an outcome has to do with the names that are declared: a declaration that has a value
declares its name, which was free, and gives it that value; everything else leaves the same names
declared, and what could not be read changes nothing at all. -/
def Outcome.Changes (before after : Environment) : Outcome → Prop
  | .evaluated (.declaration name _ _) (.ok value) =>
    before.contains name = false ∧ after.get? name = some value ∧
      ∀ other, after.contains other = (name == other || before.contains other)
  | .evaluated _ _ => after.SameNames before
  | .syntaxError _ => after = before

/-- The outcome of a statement that is plain below its root changes what it may change. -/
theorem Node.IsPlainBelow.changes {node : Node} (h : node.IsPlainBelow) (env : Environment) :
    (Outcome.evaluated node (evaluate node env).outcome).Changes env
      (evaluate node env).environment := by
  -- the outcome of no other tree than a declaration changes the names
  have hplain : ∀ {node : Node}, node.IsPlain →
      (Outcome.evaluated node (evaluate node env).outcome).Changes env
        (evaluate node env).environment := by
    intro node hnode
    have hnames := hnode.sameNames env
    cases hnode <;> exact hnames
  cases h with
  | expression hnode => exact hplain hnode
  | prototype => exact .refl env
  | function _ => exact .refl env
  | @declaration name initial l hinitial =>
    have hafter := hinitial.sameNames env
    rw [evaluate_declaration]
    rcases hvalue : evaluate initial env with ⟨e | value, after, events⟩
    · rw [hvalue] at hafter
      exact hafter
    rw [hvalue] at hafter
    dsimp only
    split
    · exact hafter
    · next hfree =>
      have hbefore : env.contains name = false :=
        (hafter name).symm.trans (Bool.eq_false_iff.2 hfree)
      refine ⟨hbefore, after.get?_set_self name value, ?_⟩
      intro other
      rw [Environment.contains_set, hafter other]

/-- An outcome comes from evaluating its statement in the environment `before`, which leaves the
environment `after`; what could not be read is not evaluated. -/
def Outcome.ComesFrom (before after : Environment) : Outcome → Prop
  | .evaluated node result =>
    result = (evaluate node before).outcome ∧ after = (evaluate node before).environment
  | .syntaxError _ => after = before

/-! ### Lines -/

namespace Session

/-- `Passes before outcomes after`: the outcomes lead from the environment `before` to the
environment `after`.  Each comes from the environment that those in front of it left, and changes
the names that it may change. -/
inductive Passes : Environment → List Outcome → Environment → Prop
  | nil (env : Environment) : Passes env [] env
  | cons {before between after : Environment} {outcome : Outcome} {outcomes : List Outcome} :
      outcome.ComesFrom before between → outcome.Changes before between →
      Passes between outcomes after → Passes before (outcome :: outcomes) after

theorem Passes.append {before between after : Environment} {outcomes more : List Outcome}
    (h : Passes before outcomes between) (hmore : Passes between more after) :
    Passes before (outcomes ++ more) after := by
  induction h with
  | nil _ => exact hmore
  | cons hcomes hchanges _ ih => exact .cons hcomes hchanges (ih hmore)

/-- Statements that are plain below their roots change what their outcomes may change. -/
theorem runStatements_passes {nodes : List Node} (h : ∀ node ∈ nodes, node.IsPlainBelow)
    (session : Session) :
    Passes session.environment (runStatements nodes session).outcomes
      (runStatements nodes session).session.environment := by
  induction nodes generalizing session with
  | nil => exact .nil _
  | cons node nodes ih =>
    obtain ⟨hnode, hnodes⟩ := List.forall_mem_cons.1 h
    exact .cons ⟨rfl, rfl⟩ (hnode.changes session.environment) (ih hnodes ⟨_⟩)

/-- **Only a declaration that has a value declares a name.**  The outcomes of a line lead from the
environment of the session in front of it to that behind it.  A declaration that has a value
declares its name and no other; the name was free before, and has that value afterwards.  Any other
statement, and one that has no value, whatever it assigned to before it failed, leaves the same
names declared.  What could not be read changes nothing. -/
theorem enter_passes (session : Session) (line : String) :
    Passes session.environment (session.enter line).outcomes
      (session.enter line).session.environment := by
  have hplain : ∀ node ∈ (Script.ofString line).statements, node.IsPlainBelow :=
    fun _ => Script.isPlainBelow_of_mem
  have hstatements := runStatements_passes hplain session
  unfold enter runScript
  cases (Script.ofString line).failure with
  | none => exact hstatements
  | some e => exact hstatements.append (.cons rfl rfl (.nil _))

example :
    let report := empty.enter "let x = y; let x = 2; (x = 3) + z; let x; y = 1; let ("
    report.session.environment.toList.map Prod.fst = ["x"] := by decide +kernel

end Session

end Reckoner
