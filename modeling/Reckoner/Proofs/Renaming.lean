import Mathlib.Logic.Equiv.Basic
import Reckoner.Proofs.Conversation
import Reckoner.Proofs.Layout
import Reckoner.Proofs.Rules

/-!
# Names carry no meaning

A name is nothing but a name: whoever gives every name another one, and different names to different
ones, changes nothing but the names.  A line is read in the same way up to its names, also if a name
is now spelled like a reserved word or an operator, because what is a name is settled before
anything is read; and a tree has the same value, or fails with the same error up to names, in an
environment that has been renamed along with it.

The empty name stays what it is.  It is the name of a function that has none, and a message tells
whether a function has a name.

For the reading, giving other names is a retelling.  For the evaluation, an environment and its
renamed form answer alike whenever they are asked for a name and for what has become of it, and a
binding keeps them so because different names stay different.

## Main definitions

* `TokenStream.renamed`, `TokenTape.renamed`, `LineReader.renamed` — a line with other names.
* `Node.renamed`, `ParseError.renamed`, `EvalError.renamed`, `Event.renamed` — what comes of it,
  with other names.
* `Environment.renamed`, `Environment.Renames` — an environment with other names, and what is known
  of it.
* `Phrase`, `ParseError.phrases`, `EvalError.phrases` — messages with the names that they quote.

## Main results

* `LineReader.turns_renamed` — a conversation about a line with other names is the same, renamed.
* `Evaluates.renamed` — a tree with other names comes to the same, renamed.
* `names_carryNoMeaning` — **names carry no meaning.**
-/

namespace Reckoner

variable {name : String → String}

/-! ### Lines with other names -/

/-- A token with another name in it, if it is a name. -/
def Token.renamed (name : String → String) (t : Token) : Token := ⟨t.lexeme.rename name, t.location⟩

/-- An entry with another name in it, if it is a name. -/
def Entry.renamed (name : String → String) : Entry → Entry
  | token t => token (t.renamed name)
  | endOfInput l => endOfInput l

/-- A tree with other names. -/
def Node.renamed (name : String → String) (node : Node) : Node := node.map id name

/-- An error with another name in it, if it is about a name. -/
def ParseError.renamed (name : String → String) (e : ParseError) : ParseError :=
  e.map id (Entry.renamed name)

namespace TokenStream

/-- A stream with other names. -/
def renamed (name : String → String) (s : TokenStream) : TokenStream :=
  ⟨s.tokens.map (Token.renamed name), s.stop⟩

theorem length_renamed (s : TokenStream) : (s.renamed name).length = s.length := List.length_map ..

theorem head_renamed (s : TokenStream) : (s.renamed name).head = s.head.renamed name := by
  cases s using cons_induction with
  | nil stop => rfl
  | cons t s => rfl

theorem tail_renamed (s : TokenStream) : (s.renamed name).tail = s.tail.renamed name := by
  cases s using cons_induction with
  | nil stop => rfl
  | cons t s => rfl

theorem atEnd_renamed (s : TokenStream) : (s.renamed name).atEnd = s.atEnd := List.isEmpty_map

end TokenStream

/-- Giving other names to the words of a stream. -/
def Retelling.naming (name : String → String) (hempty : name "" = "") : Retelling where
  place := id
  name := name
  stream := TokenStream.renamed name
  entry := Entry.renamed name
  name_empty := hempty
  retells
    | .token ⟨lexeme, l⟩ => .token lexeme l
    | .endOfInput l => .endOfInput l
  head_stream := TokenStream.head_renamed
  tail_stream s _ := TokenStream.tail_renamed s

/-- Giving other names to the words of a line cuts nothing off. -/
theorem Retelling.cutsNothing_naming (hempty : name "" = "") :
    (naming name hempty).CutsNothing :=
  ⟨TokenStream.atEnd_renamed, TokenStream.tail_renamed⟩

namespace TokenTape

/-- A tape with other names, read up to the same position. -/
def renamed (name : String → String) (tape : TokenTape) : TokenTape :=
  ⟨tape.line.renamed name, tape.position, tape.line.length_renamed ▸ tape.position_le⟩

theorem unread_renamed (tape : TokenTape) :
    (tape.renamed name).unread = tape.unread.renamed name :=
  TokenStream.ext List.map_drop.symm rfl

theorem seek_renamed (tape : TokenTape) (s : TokenStream) :
    (tape.renamed name).seek (s.renamed name) = (tape.seek s).renamed name := by
  simp only [seek, renamed, TokenStream.length_renamed]

theorem discardRest_renamed (tape : TokenTape) :
    (tape.renamed name).discardRest = tape.discardRest.renamed name := by
  simp only [discardRest, renamed, TokenStream.length_renamed]

end TokenTape

/-! ### Reading -/

namespace LineReader

/-- A reader of a line with other names. -/
def renamed (name : String → String) (r : LineReader) : LineReader :=
  ⟨r.tape.renamed name, r.failures.map (ParseError.renamed name)⟩

/-- What could be read, or why it could not be, with other names. -/
def resultRenamed {α : Type} (name : String → String) (view : α → α) (result : Except ParseError α) :
    Except ParseError α :=
  (result.map view).mapError (ParseError.renamed name)

/-- A reply with other names. -/
def Reply.renamed (name : String → String) : Reply → Reply
  | statement result => statement (resultRenamed name (Node.renamed name) result)
  | all result => all (resultRenamed name (List.map (Node.renamed name)) result)
  | handled node => handled (node.map (Node.renamed name))

/-- A turn with other names. -/
def Turn.renamed (name : String → String) (turn : Turn) : Turn :=
  ⟨turn.query, turn.reply.renamed name, turn.before.renamed name, turn.after.renamed name⟩

variable (hempty : name "" = "")

include hempty

theorem readStatement_renamed (r : LineReader) :
    (r.renamed name).readStatement =
      (resultRenamed name (Node.renamed name) r.readStatement.1, r.readStatement.2.renamed name) := by
  have hcommutes : Grammar.statement (r.tape.unread.renamed name) = _ :=
    Retelling.commutesAt_statement (Retelling.cutsNothing_naming hempty) r.tape.unread
  rw [← TokenTape.unread_renamed] at hcommutes
  cases hrun : Grammar.statement r.tape.unread with
  | ok node s =>
    rw [hrun] at hcommutes
    rw [readStatement_of_ok hrun, readStatement_of_ok (r := r.renamed name) hcommutes]
    exact Prod.ext rfl (congrArg (LineReader.mk · _) (TokenTape.seek_renamed r.tape s))
  | error e s =>
    rw [hrun] at hcommutes
    rw [readStatement_of_error hrun, readStatement_of_error (r := r.renamed name) hcommutes]
    exact Prod.ext rfl (congrArg (LineReader.mk · _) (TokenTape.seek_renamed r.tape s))

theorem readAll_renamed (r : LineReader) :
    (r.renamed name).readAll =
      (resultRenamed name (List.map (Node.renamed name)) r.readAll.1, r.readAll.2.renamed name) := by
  have hread : Script.read (r.tape.unread.renamed name) = _ :=
    Retelling.read_stream (Retelling.cutsNothing_naming hempty) r.tape.unread
  rw [← TokenTape.unread_renamed] at hread
  rcases hscript : Script.read r.tape.unread with ⟨⟨statements, failure⟩, s⟩
  rw [hscript] at hread
  have hrun : Script.read (r.renamed name).tape.unread = _ := hread
  unfold readAll
  rw [hrun, hscript]
  refine Prod.ext ?_ (congrArg (LineReader.mk · _) (TokenTape.seek_renamed r.tape s))
  cases failure <;> rfl

theorem handle_renamed (r : LineReader) :
    (r.renamed name).handle =
      (r.handle.1.map (Node.renamed name), r.handle.2.renamed name) := by
  have hread := readStatement_renamed hempty r
  cases hresult : r.readStatement.1 with
  | ok node =>
    rw [hresult] at hread
    rw [handle_of_ok hresult, handle_of_ok (r := r.renamed name) (congrArg Prod.fst hread), hread]
    rfl
  | error e =>
    rw [hresult] at hread
    rw [handle_of_error hresult, handle_of_error (r := r.renamed name) (congrArg Prod.fst hread),
      hread]
    refine Prod.ext rfl ?_
    dsimp only [renamed]
    rw [TokenTape.discardRest_renamed, List.map_append]
    rfl

/-- An answer about a line with other names is the answer about the line, renamed. -/
theorem answer_renamed (r : LineReader) (query : Query) :
    (r.renamed name).answer query =
      ((r.answer query).1.renamed name, (r.answer query).2.renamed name) := by
  cases query with
  | statement =>
    rw [answer, readStatement_renamed hempty]
    rfl
  | all =>
    rw [answer, readAll_renamed hempty]
    rfl
  | handle =>
    rw [answer, handle_renamed hempty]
    rfl

/-- A conversation about a line with other names is the same, renamed. -/
theorem turns_renamed (r : LineReader) (queries : List Query) :
    (r.renamed name).turns queries = (r.turns queries).map (Turn.renamed name) := by
  induction queries generalizing r with
  | nil => rfl
  | cons query queries ih =>
    rw [turns, turns, answer_renamed hempty, ih]
    rfl

end LineReader

/-! ### Environments with other names -/

namespace Environment

/-- The environment in which other names have the values. -/
def renamed (name : String → String) (env : Environment) : Environment :=
  ⟨.ofList (env.toList.map fun (found, value) => (name found, value))⟩

/-- `env.Renames name other`: what a name is bound to in `env`, that which has become of the name is
bound to in `other`, and nothing else is bound there. -/
structure Renames (name : String → String) (env other : Environment) : Prop where
  get?_name : ∀ found, other.get? (name found) = env.get? found
  exists_of_contains : ∀ found, other.contains found = true → ∃ before, found = name before

namespace Renames

variable {env other : Environment}

theorem contains_name (h : env.Renames name other) (found : String) :
    other.contains (name found) = env.contains found := by
  rw [contains, contains, h.get?_name]

/-- Binding a name, and binding what has become of it, keeps everything else as it is, because
different names stay different. -/
theorem set (hinj : Function.Injective name) (h : env.Renames name other) (bound : String)
    (value : Float) : (env.set bound value).Renames name (other.set (name bound) value) := by
  refine ⟨fun found => ?_, fun found hfound => ?_⟩
  · rw [get?_set, get?_set, h.get?_name]
    simp only [hinj.eq_iff]
  · rw [contains_set, Bool.or_eq_true, beq_iff_eq] at hfound
    rcases hfound with rfl | hfound
    · exact ⟨bound, rfl⟩
    · exact h.exists_of_contains found hfound

/-- There is only one way to give the names of an environment other names. -/
theorem sameValues {other' : Environment} (h : env.Renames name other)
    (h' : env.Renames name other') : other.SameValues other' := by
  have hnone : ∀ {e : Environment}, env.Renames name e → ∀ found,
      (∀ before, found ≠ name before) → e.get? found = none := by
    intro e he found hfound
    refine Option.not_isSome_iff_eq_none.1 fun hsome => ?_
    obtain ⟨before, hbefore⟩ := he.exists_of_contains found hsome
    exact hfound before hbefore
  intro found
  by_cases hfound : ∃ before, found = name before
  · obtain ⟨before, rfl⟩ := hfound
    rw [h.get?_name, h'.get?_name]
  · have hne : ∀ before, found ≠ name before := fun before heq => hfound ⟨before, heq⟩
    rw [hnone h found hne, hnone h' found hne]

end Renames

/-- Of a renamed environment the names are those that have become of the names. -/
theorem contains_renamed (env : Environment) (found : String) :
    (env.renamed name).contains found = (env.toList.map fun entry => name entry.1).contains found := by
  have hkeys : (env.renamed name).contains found = (List.map Prod.fst
      (env.toList.map fun (found, value) => (name found, value))).contains found :=
    Std.TreeMap.contains_eq_isSome_getElem?.symm.trans Std.TreeMap.contains_ofList
  rw [hkeys, List.map_map]
  rfl

/-- The names of an environment can be given other names, if different ones stay different. -/
theorem renames_renamed (hinj : Function.Injective name) (env : Environment) :
    env.Renames name (env.renamed name) := by
  refine ⟨fun found => ?_, fun found hfound => ?_⟩
  · cases hget : env.get? found with
    | some value =>
      have hmem := List.mem_map_of_mem (f := fun (found, value) => (name found, value))
        ((env.mem_toList_iff found value).2 hget)
      refine Std.TreeMap.getElem?_ofList_of_mem Std.ReflCmp.compare_self ?_ hmem
      refine List.pairwise_map.2 (env.toList_ascending.imp fun {a b} hlt heq => ?_)
      have hsame : a.1 = b.1 := hinj (Std.LawfulEqCmp.eq_of_compare heq)
      have hself : compare b.1 b.1 = .eq := Std.ReflCmp.compare_self
      rw [hsame, hself] at hlt
      cases hlt
    | none =>
      refine Option.not_isSome_iff_eq_none.1 fun hsome => ?_
      have hmem : (env.renamed name).contains (name found) = true := hsome
      rw [contains_renamed, List.contains_iff_mem] at hmem
      obtain ⟨⟨before, value⟩, hentry, heq⟩ := List.mem_map.1 hmem
      obtain rfl : before = found := hinj heq
      rw [mem_toList_iff, hget] at hentry
      cases hentry
  · rw [contains_renamed, List.contains_iff_mem] at hfound
    obtain ⟨entry, -, rfl⟩ := List.mem_map.1 hfound
    exact ⟨entry.1, rfl⟩

end Environment

/-! ### Evaluating -/

/-- A form with another name. -/
def Construct.renamed (name : String → String) : Construct → Construct
  | call callee => call (name callee)
  | prototype found => prototype (name found)
  | function found => function (name found)

/-- An error about another name. -/
def EvalError.renamed (name : String → String) : EvalError → EvalError
  | undefinedVariable found l => undefinedVariable (name found) l
  | duplicateDeclaration found l => duplicateDeclaration (name found) l
  | notEvaluable construct l => notEvaluable (construct.renamed name) l

/-- An event with another name. -/
def Event.renamed (name : String → String) : Event → Event
  | evaluate shape => evaluate shape
  | declare found value => declare (name found) value
  | assign found value => assign (name found) value
  | unreadable e => unreadable (e.renamed name)

theorem Node.shape_renamed (node : Node) : (node.renamed name).shape = node.shape := by
  cases node <;> rw [renamed, map] <;> rfl

theorem Node.refused?_renamed {node : Node} {construct : Construct} {l : Location}
    (h : node.refused? = some (construct, l)) :
    (node.renamed name).refused? = some (construct.renamed name, l) := by
  cases node <;> cases h <;> rw [renamed, map] <;> rfl

/-- **A tree with other names comes to the same, renamed**, in an environment that has been renamed
along with it: the value or the error, the events, and the environment that is left. -/
theorem Evaluates.renamed (hinj : Function.Injective name) {env other : Environment} {node : Node}
    {result : Evaluation.Result Float} (h : Evaluates env node result)
    (hother : env.Renames name other) :
    ∃ after, Evaluates other (node.renamed name)
        ⟨result.outcome.mapError (EvalError.renamed name), after,
          result.events.map (Event.renamed name)⟩ ∧
      result.environment.Renames name after := by
  unfold Node.renamed
  induction h generalizing other with
  | number =>
    rw [Node.map]
    exact ⟨other, .number, hother⟩
  | @reference env found l value hget =>
    rw [Node.map]
    exact ⟨other, .reference ((hother.get?_name found).trans hget), hother⟩
  | @unbound env found l hget =>
    rw [Node.map]
    exact ⟨other, .unbound ((hother.get?_name found).trans hget), hother⟩
  | @declaration env after found initial l value events _ hfree ih =>
    obtain ⟨after', hinitial, hafter⟩ := ih hother
    rw [Node.map, List.map_cons, List.map_append]
    exact ⟨_, .declaration hinitial ((hafter.contains_name found).trans hfree),
      hafter.set hinj found value⟩
  | @duplicate env after found initial l value events _ hbound ih =>
    obtain ⟨after', hinitial, hafter⟩ := ih hother
    rw [Node.map]
    exact ⟨after', .duplicate hinitial ((hafter.contains_name found).trans hbound), hafter⟩
  | noInitial _ ih =>
    obtain ⟨after', hinitial, hafter⟩ := ih hother
    rw [Node.map]
    exact ⟨after', .noInitial hinitial, hafter⟩
  | @assignment env after found target l value events hbound _ ih =>
    obtain ⟨after', htarget, hafter⟩ := ih hother
    rw [Node.map, List.map_cons, List.map_append]
    exact ⟨_, .assignment ((hother.contains_name found).trans hbound) htarget,
      hafter.set hinj found value⟩
  | @undeclared env found target l hfree =>
    rw [Node.map]
    exact ⟨other, .undeclared ((hother.contains_name found).trans hfree), hother⟩
  | @noTarget env after found target l e events hbound _ ih =>
    obtain ⟨after', htarget, hafter⟩ := ih hother
    rw [Node.map]
    exact ⟨after', .noTarget ((hother.contains_name found).trans hbound) htarget, hafter⟩
  | binary _ _ ihleft ihright =>
    obtain ⟨between, hleft, hbetween⟩ := ihleft hother
    obtain ⟨after', hright, hafter⟩ := ihright hbetween
    rw [Node.map, List.map_cons, List.map_append]
    exact ⟨after', .binary hleft hright, hafter⟩
  | noLeft _ ih =>
    obtain ⟨after', hleft, hafter⟩ := ih hother
    rw [Node.map]
    exact ⟨after', .noLeft hleft, hafter⟩
  | noRight _ _ ihleft ihright =>
    obtain ⟨between, hleft, hbetween⟩ := ihleft hother
    obtain ⟨after', hright, hafter⟩ := ihright hbetween
    rw [Node.map, List.map_cons, List.map_append]
    exact ⟨after', .noRight hleft hright, hafter⟩
  | @refused env node construct l hrefused =>
    have hshape : (node.map id name).shape = node.shape := node.shape_renamed
    refine ⟨other, ?_, hother⟩
    rw [← hshape]
    exact .refused (Node.refused?_renamed hrefused)

/-! ### Messages -/

/-- A part of a message: words of the message itself, or a name that it quotes. -/
inductive Phrase where
  /-- Words of the message itself. -/
  | words (text : String)
  /-- A name. -/
  | quoted (found : String)

namespace Phrase

/-- How a part of a message is written. -/
def write : Phrase → String
  | words text => text
  | quoted found => found

/-- A part of a message with another name, if it is a name. -/
def renamed (name : String → String) : Phrase → Phrase
  | words text => words text
  | quoted found => quoted (name found)

/-- How a message is written. -/
def writeAll (phrases : List Phrase) : String := String.join (phrases.map write)

@[simp] theorem writeAll_nil : writeAll [] = "" := rfl

@[simp] theorem writeAll_words (text : String) (phrases : List Phrase) :
    writeAll (words text :: phrases) = text ++ writeAll phrases := String.join_cons

@[simp] theorem writeAll_quoted (found : String) (phrases : List Phrase) :
    writeAll (quoted found :: phrases) = found ++ writeAll phrases := String.join_cons

/-- A name with words of the message on both sides. -/
theorem writeAll_around (front found behind : String) :
    writeAll [words front, quoted found, words behind] = front ++ found ++ behind := by
  simp [String.append_assoc]

theorem writeAll_append (phrases more : List Phrase) :
    writeAll (phrases ++ more) = writeAll phrases ++ writeAll more := by
  rw [writeAll, List.map_append, String.join_append]
  rfl

end Phrase

namespace ParseError

/-- The parts of a message about a line that cannot be read.  It quotes a name if it has found one.
-/
def phrases : ParseError → List Phrase
  | unexpected (.token ⟨.identifier found, _⟩) expected =>
    [.words "Expected ", .words expected.describe, .words ", found identifier '", .quoted found,
      .words "'"]
  | e => [.words e.message]

theorem writeAll_phrases (e : ParseError) : Phrase.writeAll e.phrases = e.message := by
  fun_cases phrases e with
  | case1 found l expected =>
    have hmessage : message (.unexpected (.token ⟨.identifier found, l⟩) expected) =
        "Expected " ++ expected.describe ++ ", found " ++ ("identifier '" ++ found ++ "'") := rfl
    have hfound : ", found identifier '" = ", found " ++ "identifier '" := rfl
    rw [hmessage, hfound]
    simp only [Phrase.writeAll_words, Phrase.writeAll_quoted, Phrase.writeAll_nil,
      String.append_empty, String.append_assoc]
  | case2 e _ => simp

/-- An error about another name says the same with that name in it. -/
theorem phrases_renamed (e : ParseError) :
    (e.renamed name).phrases = e.phrases.map (Phrase.renamed name) := by
  cases e with
  | malformedNumber e => rfl
  | nestedTooDeeply l => rfl
  | unexpected found expected =>
    cases found with
    | endOfInput l => rfl
    | token t =>
      obtain ⟨lexeme, l⟩ := t
      cases lexeme <;> rfl

theorem location_renamed (e : ParseError) : (e.renamed name).location = e.location := by
  cases e with
  | malformedNumber e => rfl
  | nestedTooDeeply l => rfl
  | unexpected found expected => cases found <;> rfl

end ParseError

namespace Construct

/-- The parts of a text that names a form.  A function without a name is called so. -/
def phrases : Construct → List Phrase
  | call callee => [.words "Call to '", .quoted callee, .words "'"]
  | prototype found => [.words "Prototype '", .quoted found, .words "'"]
  | function found =>
    if found = "" then [.words "Anonymous function"]
    else [.words "Function '", .quoted found, .words "'"]

theorem writeAll_phrases (construct : Construct) :
    Phrase.writeAll construct.phrases = construct.describe := by
  cases construct with
  | call callee | prototype found => exact Phrase.writeAll_around _ _ _
  | function found =>
    rw [phrases, describe]
    split
    · exact (Phrase.writeAll_words _ []).trans String.append_empty
    · exact Phrase.writeAll_around _ _ _

/-- A function has a name exactly if it has one that becomes of it. -/
theorem phrases_renamed (hinj : Function.Injective name) (hempty : name "" = "")
    (construct : Construct) :
    (construct.renamed name).phrases = construct.phrases.map (Phrase.renamed name) := by
  cases construct with
  | call callee | prototype found => rfl
  | function found =>
    have hnameless : name found = "" ↔ found = "" :=
      ⟨fun h => hinj (h.trans hempty.symm), fun h => (congrArg name h).trans hempty⟩
    rw [renamed, phrases, phrases]
    simp only [hnameless]
    split <;> rfl

end Construct

namespace EvalError

/-- The parts of a text that says what an error is about. -/
def subjectPhrases : EvalError → List Phrase
  | undefinedVariable found _ | duplicateDeclaration found _ => [.quoted found]
  | notEvaluable construct _ => construct.phrases

/-- The parts of a text that says what is wrong, apart from the line. -/
def summaryPhrases : EvalError → List Phrase
  | undefinedVariable found _ => [.words "Undefined variable '", .quoted found, .words "'"]
  | duplicateDeclaration found _ =>
    [.words "Variable '", .quoted found, .words "' is already declared"]
  | notEvaluable construct _ => construct.phrases ++ [.words " cannot be evaluated"]

/-- The parts of a message about a statement that has no value. -/
def phrases (e : EvalError) : List Phrase :=
  e.summaryPhrases ++ [.words " at line ", .words (toString e.location.line)]

theorem writeAll_subjectPhrases (e : EvalError) : Phrase.writeAll e.subjectPhrases = e.subject := by
  cases e with
  | undefinedVariable found l | duplicateDeclaration found l =>
    exact (Phrase.writeAll_quoted found []).trans String.append_empty
  | notEvaluable construct l => exact construct.writeAll_phrases

theorem writeAll_phrases (e : EvalError) : Phrase.writeAll e.phrases = e.message := by
  have hsummary : Phrase.writeAll e.summaryPhrases = e.summary := by
    cases e with
    | undefinedVariable found l => exact Phrase.writeAll_around "Undefined variable '" found "'"
    | duplicateDeclaration found l =>
      exact Phrase.writeAll_around "Variable '" found "' is already declared"
    | notEvaluable construct l =>
      rw [summaryPhrases, Phrase.writeAll_append, construct.writeAll_phrases,
        Phrase.writeAll_words, Phrase.writeAll_nil, String.append_empty]
      rfl
  have hmessage : e.message = e.summary ++ " at line " ++ toString e.location.line := rfl
  rw [phrases, Phrase.writeAll_append, hsummary, hmessage]
  simp [String.append_assoc]

theorem subjectPhrases_renamed (hinj : Function.Injective name) (hempty : name "" = "")
    (e : EvalError) :
    (e.renamed name).subjectPhrases = e.subjectPhrases.map (Phrase.renamed name) := by
  cases e with
  | undefinedVariable found l | duplicateDeclaration found l => rfl
  | notEvaluable construct l => exact construct.phrases_renamed hinj hempty

theorem location_renamed (e : EvalError) : (e.renamed name).location = e.location := by
  cases e <;> rfl

/-- An error about another name says the same with that name in it. -/
theorem phrases_renamed (hinj : Function.Injective name) (hempty : name "" = "") (e : EvalError) :
    (e.renamed name).phrases = e.phrases.map (Phrase.renamed name) := by
  rw [phrases, e.location_renamed, phrases, List.map_append]
  congr 1
  cases e with
  | undefinedVariable found l | duplicateDeclaration found l => rfl
  | notEvaluable construct l =>
    rw [renamed, summaryPhrases, construct.phrases_renamed hinj hempty, summaryPhrases,
      List.map_append]
    rfl

end EvalError

/-- **Names carry no meaning.**  Let every name become another one, different names different ones,
and let the empty name stay what it is.  Whatever a line reader is asked, of a line with other names
it answers the same, renamed, and it stands at the same position afterwards.  In an environment with
other names, a tree with other names comes to the same: the same value, or the same error, renamed;
the same events, renamed; and an environment with the same values under other names.  An error that
is renamed has the same location, and its message is the same but for the names that it quotes. -/
theorem names_carryNoMeaning (hinj : Function.Injective name) (hempty : name "" = "") :
    (∀ (r : LineReader) (queries : List LineReader.Query),
      (r.renamed name).turns queries = (r.turns queries).map (LineReader.Turn.renamed name)) ∧
    (∀ (node : Node) (env : Environment),
      let result := evaluate node env
      let result' := evaluate (node.renamed name) (env.renamed name)
      result'.outcome = result.outcome.mapError (EvalError.renamed name) ∧
        result'.events = result.events.map (Event.renamed name) ∧
        result'.environment.SameValues (result.environment.renamed name)) ∧
    (∀ e : ParseError, (e.renamed name).location = e.location ∧
      e.message = Phrase.writeAll e.phrases ∧
      (e.renamed name).message = Phrase.writeAll (e.phrases.map (Phrase.renamed name))) ∧
    (∀ e : EvalError, (e.renamed name).location = e.location ∧
      e.subject = Phrase.writeAll e.subjectPhrases ∧
      (e.renamed name).subject = Phrase.writeAll (e.subjectPhrases.map (Phrase.renamed name)) ∧
      e.message = Phrase.writeAll e.phrases ∧
      (e.renamed name).message = Phrase.writeAll (e.phrases.map (Phrase.renamed name))) := by
  refine ⟨LineReader.turns_renamed hempty, fun node env => ?_, fun e => ?_, fun e => ?_⟩
  · obtain ⟨after, hevaluates, hafter⟩ :=
      (evaluates node env).renamed hinj (env.renames_renamed hinj)
    rw [hevaluates.evaluate_eq]
    exact ⟨rfl, rfl, hafter.sameValues (Environment.renames_renamed hinj _)⟩
  · refine ⟨e.location_renamed, e.writeAll_phrases.symm, ?_⟩
    rw [← ParseError.phrases_renamed, ParseError.writeAll_phrases]
  · refine ⟨e.location_renamed, e.writeAll_subjectPhrases.symm, ?_, e.writeAll_phrases.symm, ?_⟩
    · rw [← EvalError.subjectPhrases_renamed hinj hempty, EvalError.writeAll_subjectPhrases]
    · rw [← EvalError.phrases_renamed hinj hempty, EvalError.writeAll_phrases]

/-- A name may become one that is spelled like a reserved word, and stays a name. -/
theorem names_carryNoMeaning_swap :
    let name := Equiv.swap "x" "let"
    let line := fun found => LineReader.ofTape (.ofEntries
      [.token ⟨.keyword .letWord, ⟨1, 1⟩⟩, .token ⟨.identifier found, ⟨1, 5⟩⟩])
    Function.Injective name ∧ name "" = "" ∧
      ((line "let").turns [.statement]).map LineReader.Turn.reply =
        [.statement (.ok (.declaration "let" (.number 0 ⟨1, 5⟩) ⟨1, 1⟩))] ∧
      (evaluate (.reference "let" ⟨1, 1⟩) ((Environment.empty.set "x" 1).renamed name)).outcome =
        .ok 1 ∧
      EvalError.message (.renamed name (.notEvaluable (.function "x") ⟨1, 1⟩)) =
        "Function 'let' cannot be evaluated at line 1" := by
  intro name line
  have hinj : Function.Injective name := (Equiv.swap "x" "let").injective
  have hempty : name "" = "" := Equiv.swap_apply_of_ne_of_ne (by decide) (by decide)
  have hx : name "x" = "let" := Equiv.swap_apply_left "x" "let"
  obtain ⟨hturns, hevaluate, -, herror⟩ := names_carryNoMeaning hinj hempty
  refine ⟨hinj, hempty, ?_, ?_, ?_⟩
  · have hline : (line "x").renamed name = line "let" := congrArg line hx
    have hread : (line "x").readStatement.1 =
        .ok (.declaration "x" (.number 0 ⟨1, 5⟩) ⟨1, 1⟩) := rfl
    have hnode : Node.renamed name (.declaration "x" (.number 0 ⟨1, 5⟩) ⟨1, 1⟩) =
        .declaration "let" (.number 0 ⟨1, 5⟩) ⟨1, 1⟩ := by
      rw [Node.renamed, Node.map, Node.map, hx]
      rfl
    rw [← hline, hturns, ← hnode]
    show [LineReader.Reply.statement
      (LineReader.resultRenamed name (Node.renamed name) (line "x").readStatement.1)] = _
    rw [hread]
    rfl
  · have hvalue := (hevaluate (.reference "x" ⟨1, 1⟩) (Environment.empty.set "x" 1)).1
    rw [evaluate_reference, Environment.get?_set_self, Node.renamed, Node.map, hx] at hvalue
    exact hvalue
  · rw [(herror (.notEvaluable (.function "x") ⟨1, 1⟩)).2.2.2.2]
    exact congrArg (fun found => Phrase.writeAll [.words "Function '", .quoted found, .words "'",
      .words " cannot be evaluated", .words " at line ", .words "1"]) hx

end Reckoner
