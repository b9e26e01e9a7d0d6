import Reckoner.Proofs.LineBreaks
import Reckoner.Proofs.LineMeaning
import Reckoner.Proofs.Placement

/-!
# Moving a line

Where the words of a line stand decides nothing: not how they are read, and not what becomes of the
trees.  If the words are moved to other places, the locations in trees, errors and events move with
them, and everything else stays.  For the reading this is because moving is a retelling, and for the
evaluation because errors only pass locations on.

## Main definitions

* `Retelling.moving` — moving the words of a stream.
* `Script.moved`, `Outcome.moved`, `Event.moved`, `Session.Report.moved` — what comes of a line, at
  other places.

## Main results

* `Script.read_moved` — what is moved is read at other places.
* `evaluate_moved` — what is moved has the same value, or the same error at another place.
* `Session.runScript_moved` — **what comes of a line that is moved is the same, moved.**
-/

namespace Reckoner

variable {place : Location → Location}

/-! ### Reading -/

theorem TokenStream.head_moved (s : TokenStream) : (s.moved place).head = s.head.moved place := by
  cases s using cons_induction with
  | nil stop => rfl
  | cons t s => rfl

theorem TokenStream.tail_moved (s : TokenStream) : (s.moved place).tail = s.tail.moved place := by
  cases s using cons_induction with
  | nil stop => rfl
  | cons t s => rfl

theorem TokenStream.atEnd_moved (s : TokenStream) : (s.moved place).atEnd = s.atEnd :=
  List.isEmpty_map

/-- What is moved is retold: the words and the names in them stay what they are. -/
theorem Entry.retells_moved (e : Entry) : e.Retells place id (e.moved place) := by
  cases e with
  | endOfInput l => exact .endOfInput l
  | token t =>
    obtain ⟨lexeme, l⟩ := t
    have hlexeme : lexeme.rename id = lexeme := by cases lexeme <;> rfl
    have hretells : Entry.Retells place id (.token ⟨lexeme, l⟩)
        (.token ⟨lexeme.rename id, place l⟩) := .token lexeme l
    rwa [hlexeme] at hretells

/-- Moving the words of a stream. -/
def Retelling.moving (place : Location → Location) : Retelling where
  place := place
  name := id
  stream := TokenStream.moved place
  entry := Entry.moved place
  name_empty := id_eq ""
  retells := Entry.retells_moved
  head_stream := TokenStream.head_moved
  tail_stream s _ := TokenStream.tail_moved s

/-- A tree at other places. -/
def Node.moved (place : Location → Location) (node : Node) : Node := node.map place id

/-- An error at another place. -/
def ParseError.moved (place : Location → Location) (e : ParseError) : ParseError :=
  e.map place (Entry.moved place)

namespace ParseError

/-- An error that is moved is located where its location is moved to. -/
theorem location_moved (e : ParseError) : (e.moved place).location = place e.location := by
  cases e with
  | malformedNumber e => rfl
  | nestedTooDeeply l => rfl
  | unexpected found expected => cases found <;> rfl

/-- What is wrong does not depend on where. -/
theorem message_moved (e : ParseError) : (e.moved place).message = e.message := by
  cases e with
  | malformedNumber e => rfl
  | nestedTooDeeply l => rfl
  | unexpected found expected =>
    cases found with
    | endOfInput l => cases expected <;> rfl
    | token t =>
      obtain ⟨lexeme, l⟩ := t
      cases lexeme <;> cases expected <;> rfl

end ParseError

/-- Moving the words of a line cuts nothing off. -/
theorem Retelling.cutsNothing_moving (place : Location → Location) :
    (moving place).CutsNothing :=
  ⟨TokenStream.atEnd_moved, TokenStream.tail_moved⟩

/-- What is moved is read as the same tree, or fails in the same way, at other places. -/
theorem Grammar.statement_moved (s : TokenStream) :
    statement (s.moved place) =
      match statement s with
      | .ok node t => .ok (node.moved place) (t.moved place)
      | .error e t => .error (e.moved place) (t.moved place) := by
  have hrun : statement (s.moved place) = _ :=
    Retelling.commutesAt_statement (Retelling.cutsNothing_moving place) s
  rw [hrun]
  cases statement s <;> rfl

namespace Script

/-- A script at other places. -/
def moved (place : Location → Location) (script : Script) : Script :=
  ⟨script.statements.map (Node.moved place), script.failure.map (ParseError.moved place)⟩

/-- What is moved is read as the same script, at other places. -/
theorem read_moved (s : TokenStream) :
    read (s.moved place) = ((read s).1.moved place, (read s).2.moved place) :=
  Retelling.read_stream (Retelling.cutsNothing_moving place) s

end Script

/-- A tree stays what it is if the places where its words stand do. -/
theorem Node.IsPlaced.moved_eq {places : Places}
    (hplace : ∀ {before w after l}, places before w after l → place l = l) {node : Node}
    (h : node.IsPlaced places) : node.moved place = node := by
  unfold Node.moved
  induction h with
  | number h => rw [Node.map, hplace h]
  | reference h => rw [Node.map, hplace h, id]
  | declaration h h' => rw [Node.map, Node.map, hplace h, hplace h', id]
  | initialized h _ ih => rw [Node.map, hplace h, ih, id]
  | assignment h _ ih => rw [Node.map, hplace h, ih, id]
  | binary _ h _ ihleft ihright => rw [Node.map, hplace h, ihleft, ihright]
  | @call callee args l h _ ih =>
    have hargs : args.map (Node.map place id) = args :=
      (List.map_congr_left ih).trans (List.map_id args)
    rw [Node.map, hplace h, hargs, id]
  | prototype h => rw [Node.map, Signature.map, hplace h, List.map_id, id]
  | function h h' _ ih => rw [Node.map, Signature.map, hplace h, hplace h', ih, List.map_id, id]

/-- What is read stays what it is if the tokens stay where they are. -/
theorem Grammar.moved_eq_of_statement {s t : TokenStream} {node : Node}
    (h : statement s = .ok node t) (hplace : ∀ t ∈ s.tokens, place t.location = t.location) :
    node.moved place = node :=
  (isPlaced_of_statement h).moved_eq fun hplaces => hplace _ (TokenStream.mem_of_places hplaces)

/-! ### Evaluating -/

/-- An error at another place. -/
def EvalError.moved (place : Location → Location) : EvalError → EvalError
  | undefinedVariable name l => undefinedVariable name (place l)
  | duplicateDeclaration name l => duplicateDeclaration name (place l)
  | notEvaluable construct l => notEvaluable construct (place l)

namespace EvalError

theorem location_moved (e : EvalError) : (e.moved place).location = place e.location := by
  cases e <;> rfl

/-- The message changes with the line, and in nothing else. -/
theorem message_moved (e : EvalError) :
    (e.moved place).message = s!"{e.summary} at line {(place e.location).line}" := by
  cases e <;> rfl

end EvalError

/-- An event at another place; only what could not be read has one. -/
def Event.moved (place : Location → Location) : Event → Event
  | unreadable e => unreadable (e.moved place)
  | event => event

/-- What an evaluation ends with, at another place. -/
def Evaluation.Result.moved (place : Location → Location) (result : Result Float) : Result Float :=
  ⟨result.outcome.mapError (EvalError.moved place), result.environment,
    result.events.map (Event.moved place)⟩

/-- What is moved has the same value, or the same error at another place, and does the same. -/
theorem evaluate_moved (node : Node) (env : Environment) :
    evaluate (node.moved place) env = (evaluate node env).moved place := by
  unfold Node.moved
  induction node using Node.evaluation_induction generalizing env with
  | number value l => rw [Node.map]; rfl
  | reference name l =>
    rw [Node.map, evaluate_reference, evaluate_reference, id]
    cases env.get? name <;> rfl
  | declaration name initial l ih =>
    rw [Node.map, evaluate_declaration, evaluate_declaration, ih, id]
    rcases evaluate initial env with ⟨e | value, after, events⟩
    · rfl
    · dsimp only [Evaluation.Result.moved, Except.mapError]
      split
      · rfl
      · simp [Event.moved]
  | assignment name target l ih =>
    rw [Node.map, evaluate_assignment, evaluate_assignment, ih, id]
    split
    · rcases evaluate target env with ⟨e | value, after, events⟩
      · rfl
      · simp [Evaluation.Result.moved, Except.mapError, Event.moved]
    · rfl
  | binary op left right l ihleft ihright =>
    rw [Node.map, evaluate_binary, evaluate_binary, ihleft]
    rcases evaluate left env with ⟨e | x, between, events⟩
    · rfl
    · dsimp only [Evaluation.Result.moved, Except.mapError]
      rw [ihright]
      rcases evaluate right between with ⟨e | y, after, more⟩ <;>
        simp [Evaluation.Result.moved, Except.mapError, Event.moved]
  | call callee args l => rw [Node.map]; rfl
  | prototype signature => rw [Node.map]; rfl
  | function signature body l => rw [Node.map]; rfl

/-! ### Whole lines -/

/-- What became of a statement, at another place. -/
def Outcome.moved (place : Location → Location) : Outcome → Outcome
  | evaluated node result => evaluated (node.moved place) (result.mapError (EvalError.moved place))
  | syntaxError e => syntaxError (e.moved place)

namespace Session

/-- What a line has done, at another place. -/
def Report.moved (place : Location → Location) (report : Report) : Report :=
  ⟨report.outcomes.map (Outcome.moved place), report.events.map (Event.moved place),
    report.session⟩

theorem runStatements_moved (nodes : List Node) (session : Session) :
    runStatements (nodes.map (Node.moved place)) session =
      (runStatements nodes session).moved place := by
  induction nodes generalizing session with
  | nil => rfl
  | cons node nodes ih =>
    rw [List.map_cons, runStatements, runStatements, evaluate_moved]
    dsimp only [Evaluation.Result.moved]
    rw [ih]
    simp [Report.moved, Outcome.moved]

/-- **What comes of a line that is moved is the same, moved.** -/
theorem runScript_moved (session : Session) (script : Script) :
    session.runScript (script.moved place) = (session.runScript script).moved place := by
  unfold runScript Script.moved
  cases script.failure with
  | none => exact runStatements_moved script.statements session
  | some e =>
    dsimp only [Option.map_some]
    rw [runStatements_moved]
    simp [Report.moved, Outcome.moved, Event.moved]

end Session

end Reckoner
