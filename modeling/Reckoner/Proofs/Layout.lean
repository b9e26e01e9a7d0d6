import Mathlib.Data.List.Forall2
import Reckoner.Proofs.Moving

/-!
# Layout carries no meaning

What becomes of a line depends on its words and on the values that names have, and not on where the
words stand.  Two lines with the same words may be spaced, broken and commented in different ways:
entered into sessions in which every name has the same value, they come to the same trees, the same
values and the same errors, log the same, and leave every name with the same value.  What differs
are the locations that they report.

Locations are compared by forgetting them.  Since a line that is moved does the same, moved, all of
its words may be moved to one place: then nothing is left that tells the two lines apart.  Nor can
two environments be told apart in which every name has the same value, because evaluation does
nothing but look names up and bind them.

## Main definitions

* `Environment.SameValues` — that every name has the same value in two environments.
* `Evaluation.LooksUp` — that an evaluation looks at nothing but the values of names.
* `SameWords` — that two lines have the same words.
* `Session.Report.SameButPlaces` — that two lines did the same, at other places.

## Main results

* `evaluate_looksUp` — evaluation looks at nothing but the values of names.
* `Row.IsWellSpaced.sameWords` — rows with the same words have them, whatever their separators are.
* `Session.enter_sameButPlaces` — **layout carries no meaning.**
-/

namespace Reckoner

/-! ### Environments with the same values -/

/-- Every name has the same value in both environments, or in none. -/
def Environment.SameValues (env other : Environment) : Prop :=
  ∀ name, env.get? name = other.get? name

namespace Environment.SameValues

variable {env other : Environment}

theorem contains_eq (h : env.SameValues other) (name : String) :
    env.contains name = other.contains name := by
  rw [contains, contains, h name]

theorem set (h : env.SameValues other) (name : String) (value : Float) :
    (env.set name value).SameValues (other.set name value) := by
  intro found
  rw [get?_set, get?_set, h found]

end Environment.SameValues

namespace Evaluation

variable {α β : Type}

/-- Two evaluations end the same: with the same outcome and the same events, and with the same
values of names. -/
structure Result.Same (r r' : Result α) : Prop where
  outcome : r.outcome = r'.outcome
  environment : r.environment.SameValues r'.environment
  events : r.events = r'.events

/-- An evaluation looks at nothing but the values of names: it ends the same wherever these are. -/
def LooksUp (x : Evaluation α) : Prop :=
  ∀ ⦃env env' : Environment⦄, env.SameValues env' → (x env).Same (x env')

theorem LooksUp.pure (a : α) : LooksUp (pure a : Evaluation α) :=
  fun _ _ hvalues => ⟨rfl, hvalues, rfl⟩

/-- Evaluations that only look names up do so one after the other. -/
theorem LooksUp.bind {x : Evaluation α} {f : α → Evaluation β} (h : LooksUp x)
    (hnext : ∀ a, LooksUp (f a)) : LooksUp (x >>= f) := by
  intro env env' hvalues
  obtain ⟨houtcome, hbetween, hevents⟩ := h hvalues
  rcases hx : x env with ⟨outcome, between, events⟩
  rcases hx' : x env' with ⟨outcome', between', events'⟩
  rw [hx, hx'] at houtcome hbetween hevents
  dsimp only at houtcome hbetween hevents
  subst houtcome hevents
  cases outcome with
  | error e =>
    rw [bind_apply_of_error hx, bind_apply_of_error hx']
    exact ⟨rfl, hbetween, rfl⟩
  | ok a =>
    obtain ⟨houtcome, hafter, hmore⟩ := hnext a hbetween
    rw [bind_apply_of_ok hx, bind_apply_of_ok hx']
    exact ⟨houtcome, hafter, congrArg (events ++ ·) hmore⟩

theorem looksUp_log (event : Event) : LooksUp (log event) := fun _ _ hvalues => ⟨rfl, hvalues, rfl⟩

theorem looksUp_fail (e : EvalError) : LooksUp (fail e : Evaluation α) :=
  fun _ _ hvalues => ⟨rfl, hvalues, rfl⟩

theorem looksUp_lookup? (name : String) : LooksUp (lookup? name) :=
  fun _ _ hvalues => ⟨congrArg Except.ok (hvalues name), hvalues, rfl⟩

theorem looksUp_isDeclared (name : String) : LooksUp (isDeclared name) :=
  fun _ _ hvalues => ⟨congrArg Except.ok (hvalues.contains_eq name), hvalues, rfl⟩

theorem looksUp_set (name : String) (value : Float) : LooksUp (set name value) :=
  fun _ _ hvalues => ⟨rfl, hvalues.set name value, rfl⟩

end Evaluation

open Evaluation

/-- Evaluation looks at nothing but the values of names. -/
theorem evaluate_looksUp (node : Node) : LooksUp (evaluate node) :=
  evaluate_of_goesWithSteps
    { pure := .pure
      bind := .bind
      log := fun event _ => looksUp_log event
      fail := looksUp_fail
      lookup? := looksUp_lookup?
      isDeclared := looksUp_isDeclared
      set := looksUp_set } node

namespace Session

/-- Two lines did the same: the same became of each statement, the same was logged, and every name
has the same value. -/
structure Report.Same (report report' : Report) : Prop where
  outcomes : report.outcomes = report'.outcomes
  events : report.events = report'.events
  session : report.session.environment.SameValues report'.session.environment

variable {session session' : Session}

/-- Statements do the same wherever every name has the same value. -/
theorem runStatements_same (hvalues : session.environment.SameValues session'.environment)
    (nodes : List Node) : (runStatements nodes session).Same (runStatements nodes session') := by
  induction nodes generalizing session session' with
  | nil => exact ⟨rfl, rfl, hvalues⟩
  | cons node nodes ih =>
    obtain ⟨houtcome, hafter, hevents⟩ := evaluate_looksUp node hvalues
    obtain ⟨houtcomes, hmore, hlast⟩ := @ih ⟨_⟩ ⟨_⟩ hafter
    refine ⟨?_, ?_, hlast⟩
    · simp only [runStatements]
      rw [houtcome, houtcomes]
    · simp only [runStatements]
      rw [hevents, hmore]

/-- A script does the same wherever every name has the same value. -/
theorem runScript_same (hvalues : session.environment.SameValues session'.environment)
    (script : Script) : (session.runScript script).Same (session'.runScript script) := by
  obtain ⟨houtcomes, hevents, hlast⟩ := runStatements_same hvalues script.statements
  unfold runScript
  cases script.failure with
  | none => exact ⟨houtcomes, hevents, hlast⟩
  | some e =>
    exact ⟨congrArg (· ++ [.syntaxError e]) houtcomes, congrArg (· ++ [.unreadable e]) hevents, hlast⟩

end Session

/-! ### The words of a line -/

/-- Every location is forgotten. -/
def Location.forget (_ : Location) : Location := .start

/-- Two lines have the same words, wherever they stand; or the literals that keep them from having
words are written the same. -/
inductive SameWords : Except MalformedNumber TokenStream → Except MalformedNumber TokenStream → Prop
  | words {s t : TokenStream} : s.tokens.map Token.lexeme = t.tokens.map Token.lexeme →
      SameWords (.ok s) (.ok t)
  | malformed {e e' : MalformedNumber} : e.literal = e'.literal → SameWords (.error e) (.error e')

/-- A value in front of results is one in front of what they come to. -/
theorem mapM_id_cons {α ε : Type} (a : α) (results : List (Except ε α)) :
    (.ok a :: results).mapM id = (results.mapM id).map (a :: ·) := by
  rw [List.mapM_cons]
  cases results.mapM id <;> rfl

/-- Words that are written the same are the same, wherever they stand. -/
theorem ReadsAll.sameWords {l l' stop stop' : Location} {pieces pieces' : List Piece}
    {results results' : List (Except MalformedNumber Token)} (h : ReadsAll l pieces results)
    (h' : ReadsAll l' pieces' results')
    (htexts : pieces.map Piece.text = pieces'.map Piece.text) :
    SameWords ((results.mapM id).map fun tokens => ⟨tokens, stop⟩)
      ((results'.mapM id).map fun tokens => ⟨tokens, stop'⟩) := by
  induction h generalizing l' pieces' results' with
  | nil =>
    obtain rfl := List.map_eq_nil_iff.1 htexts.symm
    cases h'
    exact .words rfl
  | @cons l p pieces result results hresult _ ih =>
    obtain ⟨p', pieces', rfl, htext, htexts⟩ := List.map_eq_cons_iff.1 htexts.symm
    obtain _ | @⟨_, _, _, result', results', hresult', hresults'⟩ := h'
    have hrest := ih hresults' htexts.symm
    rw [htext] at hresult'
    cases hresult with
    | malformed hmalformed =>
      cases hresult' with
      | malformed => exact .malformed rfl
      | token hspells => exact absurd hmalformed hspells.not_isMalformed
    | token hspells =>
      cases hresult' with
      | malformed hmalformed => exact absurd hmalformed hspells.not_isMalformed
      | token hspells' =>
        obtain rfl := hspells.unique hspells'
        rw [mapM_id_cons, mapM_id_cons]
        generalize results.mapM id = read at hrest ⊢
        generalize results'.mapM id = read' at hrest ⊢
        cases read with
        | error e =>
          cases read' with
          | error e' => exact hrest
          | ok tokens' => cases hrest
        | ok tokens =>
          cases read' with
          | error e' => cases hrest
          | ok tokens' =>
            obtain ⟨hwords⟩ := hrest
            exact .words (congrArg (_ :: ·) hwords)

/-- Rows with the same words have them, whatever their separators are. -/
theorem Row.IsWellSpaced.sameWords {r r' : Row} (h : r.IsWellSpaced) (h' : r'.IsWellSpaced)
    (htexts : r.pieces.map Piece.text = r'.pieces.map Piece.text) :
    SameWords (Source.ofString (String.ofList r.chars)).tokenize
      (Source.ofString (String.ofList r'.chars)).tokenize := by
  obtain ⟨results, hresults⟩ := h.exists_readsAll .start
  obtain ⟨results', hresults'⟩ := h'.exists_readsAll .start
  rw [Source.ofString, Source.ofString, String.toList_ofList, String.toList_ofList,
    h.tokenize_eq hresults, h'.tokenize_eq hresults']
  exact hresults.sameWords hresults' htexts

/-- Streams with the same words are the same when their locations are forgotten. -/
theorem TokenStream.moved_forget_eq {s t : TokenStream}
    (h : s.tokens.map Token.lexeme = t.tokens.map Token.lexeme) :
    s.moved .forget = t.moved .forget := by
  have htokens : ∀ u : TokenStream, u.tokens.map (Token.moved .forget) =
      (u.tokens.map Token.lexeme).map fun w => ⟨w, .start⟩ := by
    intro u
    rw [List.map_map]
    rfl
  refine TokenStream.ext ?_ rfl
  rw [moved, moved, htokens, htokens, h]

/-- Lines with the same words are the same scripts when their locations are forgotten. -/
theorem Script.ofString_moved_forget {line line' : String}
    (h : SameWords (Source.ofString line).tokenize (Source.ofString line').tokenize) :
    (ofString line).moved .forget = (ofString line').moved .forget := by
  rw [ofString, ofString]
  generalize (Source.ofString line).tokenize = result at h
  generalize (Source.ofString line').tokenize = result' at h
  cases h with
  | @words s t hwords =>
    have hread : ∀ u : TokenStream, (read u).1.moved .forget = (read (u.moved .forget)).1 :=
      fun u => (congrArg Prod.fst (read_moved u)).symm
    dsimp only
    rw [hread, hread, TokenStream.moved_forget_eq hwords]
  | @malformed e e' hliteral =>
    obtain ⟨literal, l⟩ := e
    obtain ⟨literal', l'⟩ := e'
    obtain rfl : literal = literal' := hliteral
    rfl

/-! ### The same at other places -/

/-- A tree whose locations are forgotten is the tree without its locations. -/
theorem Node.moved_forget (node : Node) : node.moved .forget = node.unplaced := by
  unfold moved
  fun_induction Node.unplaced node with
  | case1 value l => rw [map]; rfl
  | case2 name l => rw [map]; rfl
  | case3 name initial l ih => rw [map, ih]; rfl
  | case4 name value l ih => rw [map, ih]; rfl
  | case5 op left right l ihleft ihright => rw [map, ihleft, ihright]; rfl
  | case6 callee args l ih => rw [map, List.map_congr_left ih]; rfl
  | case7 signature => rw [map, Signature.map, List.map_id]; rfl
  | case8 signature body l ih => rw [map, ih, Signature.map, List.map_id]; rfl

/-- Two errors are the same but for where they are. -/
structure ParseError.SameButPlaces (e e' : ParseError) : Prop where
  cause : e.moved .forget = e'.moved .forget
  message : e.message = e'.message

/-- Two errors are the same but for where they are; their messages end with the line of that. -/
structure EvalError.SameButPlaces (e e' : EvalError) : Prop where
  cause : e.moved .forget = e'.moved .forget
  subject : e.subject = e'.subject
  message : ∃ summary : String, e.message = summary ++ " at line " ++ toString e.location.line ∧
    e'.message = summary ++ " at line " ++ toString e'.location.line

/-- The same became of two statements: they have the same tree and the same value, or the same
error; or they could not be read for the same reason.  Locations may differ. -/
inductive Outcome.SameButPlaces : Outcome → Outcome → Prop
  | value {node node' : Node} (x : Float) : node.unplaced = node'.unplaced →
      SameButPlaces (.evaluated node (.ok x)) (.evaluated node' (.ok x))
  | error {node node' : Node} {e e' : EvalError} : node.unplaced = node'.unplaced →
      e.SameButPlaces e' → SameButPlaces (.evaluated node (.error e)) (.evaluated node' (.error e'))
  | syntaxError {e e' : ParseError} : e.SameButPlaces e' →
      SameButPlaces (.syntaxError e) (.syntaxError e')

/-- Two events are the same but for the places that they log. -/
structure Event.SameButPlaces (event event' : Event) : Prop where
  level : event.level = event'.level
  message : event.message = event'.message
  fields : List.Forall₂ (fun field field' => field.1 = field'.1 ∧
    (field.1 = "line" ∨ field.1 = "column" ∨ field.2 = field'.2)) event.fields event'.fields

theorem ParseError.sameButPlaces {e e' : ParseError} (h : e.moved .forget = e'.moved .forget) :
    e.SameButPlaces e' := by
  have hmessage : ∀ e : ParseError, (e.moved .forget).message = e.message := message_moved
  refine ⟨h, ?_⟩
  rw [← hmessage e, h, hmessage]

theorem EvalError.sameButPlaces {e e' : EvalError} (h : e.moved .forget = e'.moved .forget) :
    e.SameButPlaces e' := by
  have hsummary : ∀ e : EvalError, (e.moved .forget).summary = e.summary := by
    intro e
    cases e <;> rfl
  have hsubject : ∀ e : EvalError, (e.moved .forget).subject = e.subject := by
    intro e
    cases e <;> rfl
  refine ⟨h, ?_, e.summary, rfl, ?_⟩
  · rw [← hsubject e, h, hsubject]
  · rw [← hsummary e, h, hsummary]
    rfl

theorem Outcome.sameButPlaces {outcome outcome' : Outcome}
    (h : outcome.moved .forget = outcome'.moved .forget) : outcome.SameButPlaces outcome' := by
  cases outcome with
  | syntaxError e =>
    cases outcome' with
    | syntaxError e' => exact .syntaxError (ParseError.sameButPlaces (Outcome.syntaxError.inj h))
    | evaluated node' result' => cases h
  | evaluated node result =>
    cases outcome' with
    | syntaxError e' => cases h
    | evaluated node' result' =>
      obtain ⟨hnode, hresult⟩ := Outcome.evaluated.inj h
      rw [Node.moved_forget, Node.moved_forget] at hnode
      cases result with
      | ok x =>
        cases result' with
        | ok x' =>
          cases hresult
          exact .value x hnode
        | error e' => cases hresult
      | error e =>
        cases result' with
        | ok x' => cases hresult
        | error e' => exact .error hnode (EvalError.sameButPlaces (Except.error.inj hresult))

theorem Event.sameButPlaces {event event' : Event}
    (h : event.moved .forget = event'.moved .forget) : event.SameButPlaces event' := by
  have hsame : ∀ event : Event, event.SameButPlaces event := by
    intro event
    exact ⟨rfl, rfl, List.forall₂_same.2 fun _ _ => ⟨rfl, .inr (.inr rfl)⟩⟩
  cases event with
  | unreadable e =>
    cases event' with
    | unreadable e' =>
      have he := ParseError.sameButPlaces (Event.unreadable.inj h)
      exact ⟨rfl, he.message, .cons ⟨rfl, .inl rfl⟩ (.cons ⟨rfl, .inr (.inl rfl)⟩ .nil)⟩
    | _ => cases h
  | evaluate shape =>
    cases event' with
    | evaluate shape' => cases h; exact hsame _
    | _ => cases h
  | declare name x =>
    cases event' with
    | declare name' x' => cases h; exact hsame _
    | _ => cases h
  | assign name x =>
    cases event' with
    | assign name' x' => cases h; exact hsame _
    | _ => cases h

/-- Lists that a function takes to the same are related item by item, if what it takes to the same
is. -/
theorem forall₂_of_map_eq {α β : Type} {R : α → α → Prop} {f : α → β}
    (hR : ∀ a b, f a = f b → R a b) {as bs : List α} (h : as.map f = bs.map f) :
    List.Forall₂ R as bs := by
  rw [← List.forall₂_eq_eq_eq, List.forall₂_map_left_iff, List.forall₂_map_right_iff] at h
  exact h.imp hR

namespace Session

/-- Two lines did the same but for the places that they report. -/
structure Report.SameButPlaces (report report' : Report) : Prop where
  outcomes : List.Forall₂ Outcome.SameButPlaces report.outcomes report'.outcomes
  events : List.Forall₂ Event.SameButPlaces report.events report'.events
  session : report.session.environment.SameValues report'.session.environment

/-- **Layout carries no meaning.**  Let two lines have the same words, wherever these stand, and let
every name have the same value in two sessions.  Then as many statements come of one line as of the
other, each with the same tree and the same value, or the same error, and the same reason keeps the
next one from being read; the same is logged; and every name has the same value afterwards.  What
differs are locations: those in trees and errors, the line that a message ends with, and the line
and the column that are logged. -/
theorem enter_sameButPlaces {session session' : Session} {line line' : String}
    (hwords : SameWords (Source.ofString line).tokenize (Source.ofString line').tokenize)
    (hvalues : session.environment.SameValues session'.environment) :
    (session.enter line).SameButPlaces (session'.enter line') := by
  have hmoved : ∀ (session : Session) (line : String), (session.enter line).moved .forget =
      session.runScript ((Script.ofString line).moved .forget) :=
    fun session line => (session.runScript_moved (Script.ofString line)).symm
  have hsame := runScript_same hvalues ((Script.ofString line).moved .forget)
  rw [← hmoved session line, Script.ofString_moved_forget hwords, ← hmoved session' line'] at hsame
  obtain ⟨houtcomes, hevents, hlast⟩ := hsame
  exact ⟨forall₂_of_map_eq (fun _ _ => Outcome.sameButPlaces) houtcomes,
    forall₂_of_map_eq (fun _ _ => Event.sameButPlaces) hevents, hlast⟩

/-- A name without a value is reported on the second line when the semicolon in front of it is
behind a comment. -/
theorem enter_sameButPlaces_comment :
    SameWords (Source.ofString "1;x").tokenize (Source.ofString "1 # one\r\n;x").tokenize ∧
      (Session.empty.enter "1;x").SameButPlaces (Session.empty.enter "1 # one\r\n;x") := by
  have h1 : IsLexemeText ['1'] := .numeral ⟨'1', [], rfl, rfl, List.forall_mem_nil _⟩
  have hsemicolon : IsLexemeText [';'] := .mark rfl
  have hx : IsLexemeText ['x'] := .word ⟨'x', [], rfl, rfl, List.forall_mem_nil _⟩
  have hplain : (Row.mk [⟨[], ['1']⟩, ⟨[], [';']⟩, ⟨[], ['x']⟩] []).IsWellSpaced := by
    refine ⟨?_, ?_, ?_, .nil⟩
    · simp [Trivia.IsSeparator.nil]
    · simp [h1, hsemicolon, hx]
    · simp only [List.isChain_cons_cons, List.head?_cons, Option.some.injEq, forall_const,
        forall_eq', List.IsChain.singleton, and_true]
      exact ⟨rfl, rfl⟩
  have hcomment : Trivia.IsSeparator false [' ', '#', ' ', 'o', 'n', 'e', '\r', '\n'] := by
    have hend : Trivia.IsSeparator false ['\n'] := .blank rfl .nil
    have hbody : ∀ b ∈ [' ', 'o', 'n', 'e'], Trivia.endsComment b = false := by
      simp [Trivia.endsComment]
    exact .blank rfl (.comment hbody rfl hend)
  have hcommented : (Row.mk [⟨[], ['1']⟩, ⟨[' ', '#', ' ', 'o', 'n', 'e', '\r', '\n'], [';']⟩,
      ⟨[], ['x']⟩] []).IsWellSpaced := by
    refine ⟨?_, ?_, ?_, .nil⟩
    · simp [Trivia.IsSeparator.nil, hcomment]
    · simp [h1, hsemicolon, hx]
    · simp only [List.isChain_cons_cons, List.head?_cons, Option.some.injEq, forall_const,
        forall_eq', List.IsChain.singleton, and_true]
      exact ⟨nofun, rfl⟩
  have hwords := hplain.sameWords hcommented rfl
  exact ⟨hwords, enter_sameButPlaces hwords fun _ => rfl⟩

end Session

end Reckoner
