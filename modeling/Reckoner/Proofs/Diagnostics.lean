import Reckoner.Proofs.Blame
import Reckoner.Proofs.LineMeaning
import Reckoner.Proofs.Placement
import Reckoner.Proofs.RowReading

/-!
# What diagnostics point at

A diagnostic names something and says where it is.  Both are true of the text of the line: the word
that the diagnostic names begins at the place that it gives, and has the words next to it that make
it what the diagnostic takes it for.

Locations are counted out when the line is cut into tokens, and from then on are only handed down: a
parser hands those of the tokens to the nodes of the tree and to its errors, and evaluation hands
those of the nodes to its own errors.

## Main definitions

* `Row.places` — where the words of a row stand.
* `ParseError.PointsInto`, `Outcome.PointsInto` — that what a diagnostic names is in a row where it
  says.

## Main results

* `Row.places_of_readsAll` — where words stand in the tokens of a row, they stand in the row.
* `Session.pointsInto_of_mem_outcomes` — what goes wrong in a line points into any row that it is.
* `Session.enter_pointsInto` — **every diagnostic points at the text that it names.**
-/

namespace Reckoner

/-! ### The words of a row -/

/-- Where the words of a row stand: behind all that is in front of them, their own gap included. -/
def Row.places (r : Row) : Places := fun before w after l =>
  ∃ (front fs : List Piece) (p : Piece) (ps behind : List Piece),
    r.pieces = front ++ (fs ++ p :: (ps ++ behind)) ∧
      List.Forall₂ (fun q v => Spells q.text v) fs before ∧ Spells p.text w ∧
      List.Forall₂ (fun q v => Spells q.text v) ps after ∧
      l = .behind ((front ++ fs).flatMap Piece.chars ++ p.gap)

namespace ReadsAll

variable {l : Location} {pieces : List Piece} {tokens : List Token}

/-- What comes first is read from the pieces that come first. -/
theorem of_append {first rest : List (Except MalformedNumber Token)}
    (h : ReadsAll l pieces (first ++ rest)) :
    ∃ ps qs, pieces = ps ++ qs ∧ ReadsAll l ps first ∧
      ReadsAll (l.advance (ps.flatMap Piece.chars)) qs rest := by
  induction first generalizing l pieces with
  | nil => exact ⟨[], pieces, rfl, .nil, h⟩
  | cons result first ih =>
    cases h with
    | @cons _ p _ _ _ hresult hrest =>
      obtain ⟨ps, qs, rfl, hfirst, hrest⟩ := ih hrest
      refine ⟨p :: ps, qs, rfl, .cons hresult hfirst, ?_⟩
      rwa [List.flatMap_cons, Location.advance_append]

/-- Tokens are spelled as the pieces that they are read from. -/
theorem spells (h : ReadsAll l pieces (tokens.map .ok)) :
    List.Forall₂ (fun p w => Spells p.text w) pieces (tokens.map Token.lexeme) := by
  induction tokens generalizing l pieces with
  | nil =>
    cases h
    exact .nil
  | cons t tokens ih =>
    cases h with
    | cons hresult hrest =>
      cases hresult with
      | token hspells => exact .cons hspells (ih hrest)

/-- No token is read from a malformed literal. -/
theorem not_isMalformed (h : ReadsAll l pieces (tokens.map .ok)) :
    ∀ p ∈ pieces, ¬ IsMalformed p.text :=
  ((List.forall₂_and_left _ _).1 (h.spells.imp fun _ _ hp => ⟨hp.not_isMalformed, hp⟩)).1

end ReadsAll

/-- Where words stand in the tokens of a row, they stand in the row. -/
theorem Row.places_of_readsAll {r : Row} {s : TokenStream}
    (h : ReadsAll .start r.pieces (s.tokens.map .ok)) {before after : List Lexeme} {w : Lexeme}
    {l : Location} : s.places before w after l → r.places before w after l := by
  rintro ⟨t, u, v, ⟨-, front, hfront⟩, hbefore, hhead, hafter⟩
  obtain ⟨-, fs, hfs, rfl⟩ := TokenStream.spans_iff.1 hbefore
  obtain ⟨-, ts, hts, rfl⟩ := TokenStream.spans_iff.1 hafter
  have hu : u.tokens = ⟨w, l⟩ :: (ts ++ v.tokens) := by
    rw [TokenStream.eq_cons_of_head hhead, ← hts]
    rfl
  rw [← hfront, hfs, hu, List.map_append, List.map_append, List.map_cons, List.map_append] at h
  obtain ⟨ps, qs, hpieces, -, h⟩ := h.of_append
  obtain ⟨fs', qs, rfl, hfs', h⟩ := h.of_append
  cases h with
  | @cons _ p _ _ _ hresult hrest =>
    obtain ⟨ts', behind, rfl, hts', -⟩ := hrest.of_append
    cases hresult with
    | token hspells =>
      refine ⟨ps, fs', p, ts', behind, hpieces, hfs'.spells, hspells, hts'.spells, ?_⟩
      rw [List.flatMap_append, ← Location.advance_start, Location.advance_append,
        Location.advance_append]

/-- Every name has characters. -/
theorem Spells.name_ne_empty {text : List Char} {name : String}
    (h : Spells text (.identifier name)) : name ≠ "" := by
  cases h with
  | identifier hword _ =>
    obtain ⟨first, more, rfl, -⟩ := hword
    intro hempty
    have hnil := congrArg String.toList hempty
    rw [String.toList_ofList] at hnil
    cases hnil

/-- No name without characters stands in a row. -/
theorem Row.not_places_nameless {r : Row} {before after : List Lexeme} {l : Location} :
    ¬ r.places before (.identifier "") after l := by
  rintro ⟨-, -, p, -, -, -, -, hspells, -⟩
  exact hspells.name_ne_empty rfl

/-! ### What errors point at -/

/-- `e.PointsInto r`: what the error `e` names is in the row `r` where it says.  It quotes the first
malformed literal and has its location; or it names a word and has its location, or names the end of
the input and has the location behind the row.  An expression that is nested too deeply is not
named; it has the location of some word, or the location behind the row. -/
def ParseError.PointsInto (r : Row) (e : ParseError) : Prop :=
  match e with
  | .malformedNumber _ =>
    ∃ before p behind, r.pieces = before ++ p :: behind ∧
      (∀ q ∈ before, ¬ IsMalformed q.text) ∧ IsMalformed p.text ∧
      e.message = s!"Invalid number literal: {String.ofList p.text}" ∧
      e.location = .behind (before.flatMap Piece.chars ++ p.gap)
  | .nestedTooDeeply _ => (∃ w, r.places [] w [] e.location) ∨ e.location = .behind r.chars
  | .unexpected _ expected =>
    (∃ w, r.places [] w [] e.location ∧
      (e.message = s!"Expected {expected.describe}, found {w.describe}" ∨
        ∃ text, w = .operator text ∧
          e.message = s!"Unexpected operator '{text}' when expecting an expression")) ∨
      e.message = s!"Expected {expected.describe}, found end of input" ∧
        e.location = .behind r.chars

/-- If an outcome is an error, then it points into a row. -/
def Outcome.PointsInto (r : Row) : Outcome → Prop
  | .evaluated _ (.ok _) => True
  | .evaluated _ (.error e) => e.PointsInto r.places
  | .syntaxError e => e.PointsInto r

/-- A message names the word that was found, an operator in the place of an expression as such. -/
theorem ParseError.message_unexpected (t : Token) (expected : Expectation) :
    message (.unexpected (.token t) expected) =
        s!"Expected {expected.describe}, found {t.lexeme.describe}" ∨
      ∃ text, t.lexeme = .operator text ∧ message (.unexpected (.token t) expected) =
        s!"Unexpected operator '{text}' when expecting an expression" := by
  rw [message.eq_def]
  split
  · next h => cases h
  · next h => cases h
  · next text l h =>
    cases h
    exact .inr ⟨text, rfl, rfl⟩
  · next h =>
    cases h
    exact .inl rfl

theorem ParseError.message_endOfInput (l : Location) (expected : Expectation) :
    message (.unexpected (.endOfInput l) expected) =
      s!"Expected {expected.describe}, found end of input" := by
  show "Expected " ++ expected.describe ++ ", found " ++ "end of input" =
    "Expected " ++ expected.describe ++ ", found end of input"
  rw [String.append_assoc]
  rfl

/-- The error that stops the reading of tokens points into the row that they are read from. -/
theorem ParseError.Blames.pointsInto {r : Row} {s t : TokenStream} {e : ParseError}
    (hreads : ReadsAll .start r.pieces (s.tokens.map .ok)) (hstop : s.stop = .behind r.chars)
    (ht : t.IsRestOf s) (h : e.Blames t.head) : e.PointsInto r := by
  -- what comes next is a word of the row, or the end behind it
  have hentry : (∃ a, t.head = .token a ∧ r.places [] a.lexeme [] a.location) ∨
      t.head = .endOfInput (.behind r.chars) := by
    cases hhead : t.head with
    | token a => exact .inl ⟨a, rfl, r.places_of_readsAll hreads ⟨t, t, _, ht, rfl, hhead, rfl⟩⟩
    | endOfInput l =>
      obtain ⟨_ | ⟨a, tokens⟩, stop⟩ := t
      · cases hhead
        exact .inr (congrArg Entry.endOfInput (ht.1.trans hstop))
      · cases hhead
  generalize t.head = entry at h hentry
  cases h with
  | unexpected entry expected =>
    rcases hentry with ⟨a, rfl, hplace⟩ | rfl
    · exact .inl ⟨a.lexeme, hplace, message_unexpected a expected⟩
    · exact .inr ⟨message_endOfInput _ expected, rfl⟩
  | nestedTooDeeply entry =>
    rcases hentry with ⟨a, rfl, hplace⟩ | rfl
    · exact .inl ⟨a.lexeme, hplace⟩
    · exact .inr rfl

/-- The malformed literal that keeps a row from having tokens is the first of the row. -/
theorem MalformedNumber.pointsInto {r : Row} {tokens : List Token} {e : MalformedNumber}
    {rest : List (Except MalformedNumber Token)}
    (hreads : ReadsAll .start r.pieces (tokens.map .ok ++ .error e :: rest)) :
    (ParseError.malformedNumber e).PointsInto r := by
  obtain ⟨before, qs, hpieces, hbefore, hqs⟩ := hreads.of_append
  cases hqs with
  | @cons _ p behind _ _ hresult _ =>
    cases hresult with
    | malformed hmalformed =>
      refine ⟨before, p, behind, hpieces, hbefore.not_isMalformed, hmalformed, rfl, ?_⟩
      rw [← Location.advance_start, Location.advance_append]
      rfl

/-! ### Lines -/

namespace Session

/-- An outcome of a script is one of its statements with its result, or its failure. -/
theorem mem_outcomes_runScript {session : Session} {script : Script} {outcome : Outcome}
    (h : outcome ∈ (session.runScript script).outcomes) :
    (∃ node ∈ script.statements, ∃ env, outcome = .evaluated node (evaluate node env).outcome) ∨
      ∃ e, script.failure = some e ∧ outcome = .syntaxError e := by
  have hstatements : ∀ outcome ∈ (runStatements script.statements session).outcomes,
      ∃ node ∈ script.statements, ∃ env, outcome = .evaluated node (evaluate node env).outcome := by
    intro outcome h
    rw [outcomes_runStatements] at h
    obtain ⟨k, hk, rfl⟩ := List.mem_mapIdx.1 h
    exact ⟨_, List.getElem_mem hk, _, rfl⟩
  rw [runScript] at h
  cases hfailure : script.failure with
  | none =>
    rw [hfailure] at h
    exact .inl (hstatements outcome h)
  | some e =>
    rw [hfailure] at h
    rcases List.mem_append.1 h with h | h
    · exact .inl (hstatements outcome h)
    · exact .inr ⟨e, rfl, List.mem_singleton.1 h⟩

/-- Whatever goes wrong in a line points into any row that the line is. -/
theorem pointsInto_of_mem_outcomes {session : Session} {line : String} {r : Row}
    (hwell : r.IsWellSpaced) (hchars : r.chars = line.toList) {outcome : Outcome}
    (houtcome : outcome ∈ (session.enter line).outcomes) : outcome.PointsInto r := by
  obtain ⟨results, hreads⟩ := hwell.exists_readsAll .start
  have htokenize := hwell.tokenize_eq hreads
  rw [Location.advance_start] at htokenize
  rw [enter, Script.ofString, Source.ofString, ← hchars, htokenize] at houtcome
  rcases results_cases results with ⟨tokens, rfl⟩ | ⟨tokens, e, rest, rfl⟩
  · rw [mapM_id_ok] at houtcome
    -- what the line is read as comes from the tokens of the row
    rcases mem_outcomes_runScript houtcome with ⟨node, hnode, env, rfl⟩ | ⟨e, he, rfl⟩
    · obtain ⟨t, u, ht, hrun⟩ := (Script.read_rests _).1 node hnode
      have hplaced : node.IsPlaced r.places :=
        (Grammar.isPlaced_of_statement hrun).mono fun h =>
          Row.places_of_readsAll hreads (ht.places h)
      cases hresult : (evaluate node env).outcome with
      | ok value => exact trivial
      | error e =>
        exact hplaced.pointsInto Row.not_places_nameless hresult
    · obtain ⟨t, ht, hblames⟩ := Script.blames_of_failure he
      exact hblames.pointsInto hreads rfl ht
  · rw [mapM_id_error] at houtcome
    obtain rfl := List.mem_singleton.1 houtcome
    exact MalformedNumber.pointsInto hreads

/-- **Every diagnostic points at the text that it names.**  A line is a row of words with separators
around them, and whatever goes wrong in the line points into the row that it is.  A malformed number
literal is the first of the row, and is located where it begins.  A syntax error is located where
the word begins that it names, or behind the line if it names the end of the input.  A name that is
not declared is located where it stands, and one that is declared again where the `let` in front of
it does; what is called or announced, where its name stands in front of a parenthesis or behind
`extern`; and a function, where `function` stands in front of its name or, if it has none, of its
parenthesis. -/
theorem enter_pointsInto (session : Session) (line : String) :
    (∃ r : Row, r.IsWellSpaced ∧ r.chars = line.toList) ∧
      ∀ r : Row, r.IsWellSpaced → r.chars = line.toList →
        ∀ outcome ∈ (session.enter line).outcomes, outcome.PointsInto r :=
  ⟨exists_row line.toList, fun _ hwell hchars _ => pointsInto_of_mem_outcomes hwell hchars⟩

example : ((empty.enter "let x;\n 1 + f(x); x = (y +").outcomes.map fun
    | .evaluated _ (.ok _) => none
    | .evaluated _ (.error e) => some (e.subject, e.location)
    | .syntaxError e => some (e.message, e.location)) =
      [none, some ("Call to 'f'", ⟨2, 6⟩),
        some ("Expected expression, found end of input", ⟨2, 20⟩)] := by decide +kernel

end Session

end Reckoner
