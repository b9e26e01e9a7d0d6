import Reckoner.Proofs.Moving

/-!
# Joining lines

Two lines may be entered as one: with a line feed between them, and with a semicolon as well if the
first one does not end with one.  What the first line does is no matter of what is behind it, and
what the second one does is no matter of where it stands, but for the locations that it reports.

The only thing that changes for the first line is that its last statement may now end at a
semicolon where it has ended with the line.  A statement that is read does not have the location of
its end in it, and so its tree stays what it was.

## Main definitions

* `TokenStream.isOpen`, `TokenStream.joint` — whether a line is not ended with a semicolon, and what
  joins it with the next one.
* `Session.Report.append` — what two lines have done, one after the other.

## Main results

* `Grammar.statement_of_stop`, `Grammar.statement_of_cut` — a statement is read in the same way
  wherever its line ends, and whatever is behind its semicolon.
* `Script.read_append` — lines that are joined are read one after the other.
* `Session.enter_joined` — **joining two lines does not change what they do.**
-/

namespace Reckoner

/-! ### Statements in longer lines -/

namespace TokenStream

variable {s : TokenStream} {semicolon : Token} {behind : List Token}

theorem sentence_append_afterSentence (s : TokenStream) :
    s.sentence ++ s.afterSentence.tokens = s.tokens := List.takeWhile_append_dropWhile

/-- No semicolon is in a sentence. -/
theorem isSemicolon_of_mem_sentence {t : Token} (h : t ∈ s.sentence) : t.isSemicolon = false := by
  have hkept := List.mem_takeWhile_imp h
  simpa using hkept

/-- What comes behind a sentence is a semicolon. -/
theorem isSemicolon_of_afterSentence (h : s.afterSentence.tokens = semicolon :: behind) :
    semicolon.isSemicolon = true := by
  have hafter : s.afterSentence = ⟨semicolon :: behind, s.stop⟩ := TokenStream.ext h rfl
  have hends := s.endsStatement_afterSentence
  rw [hafter, head_mk_cons, Entry.endsStatement, Bool.or_eq_true] at hends
  rcases hends with hends | hends
  · exact hends
  · cases hends

/-- A semicolon behind a sentence ends it. -/
theorem sentence_append (s : TokenStream) (hsemicolon : semicolon.isSemicolon = true)
    (behind : List Token) (stop : Location) :
    (mk (s.sentence ++ semicolon :: behind) stop).sentence = s.sentence ∧
      (mk (s.sentence ++ semicolon :: behind) stop).afterSentence = ⟨semicolon :: behind, stop⟩ := by
  have hkept : ∀ t ∈ s.sentence, (!t.isSemicolon) = true := by
    intro t ht
    rw [isSemicolon_of_mem_sentence ht]
    rfl
  generalize s.sentence = front at hkept ⊢
  constructor
  · rw [sentence, List.takeWhile_append_of_pos hkept]
    simp [hsemicolon]
  · rw [afterSentence, List.dropWhile_append_of_pos hkept]
    simp [hsemicolon]

/-- Whether the last token of a line is there and is no semicolon. -/
def isOpen (s : TokenStream) : Bool := s.tokens.getLast?.any fun t => !t.isSemicolon

/-- A line without a semicolon is open, unless it is empty. -/
theorem isOpen_of_afterSentence (hend : s.atEnd = false) (h : s.afterSentence.tokens = []) :
    s.isOpen = true := by
  have htokens : s.sentence = s.tokens := by
    rw [← s.sentence_append_afterSentence, h, List.append_nil]
  cases hlast : s.tokens.getLast? with
  | none =>
    rw [atEnd, List.getLast?_eq_none_iff.1 hlast] at hend
    cases hend
  | some t =>
    have hmem : t ∈ s.sentence := htokens ▸ List.mem_of_getLast? hlast
    rw [isOpen, hlast, Option.any_some, isSemicolon_of_mem_sentence hmem]
    rfl

/-- Whether a line is open is decided behind its first semicolon. -/
theorem isOpen_eq (h : s.afterSentence.tokens = semicolon :: behind) (stop : Location) :
    s.isOpen = (mk behind stop).isOpen := by
  rw [isOpen, isOpen, ← s.sentence_append_afterSentence, h]
  cases behind with
  | nil =>
    rw [List.getLast?_concat, Option.any_some, isSemicolon_of_afterSentence h]
    rfl
  | cons t behind =>
    rw [List.getLast?_append_of_ne_nil _ (List.cons_ne_nil _ _), List.getLast?_cons_cons]

end TokenStream

namespace Grammar

open TokenStream

/-- Whatever is behind the semicolon or the end, a statement is read in the same way. -/
theorem statement_of_cut {s j rest : TokenStream} {node : Node} (h : statement s = .ok node rest)
    (hcut : j.cut = s.cut) : statement j = .ok node j.afterSentence.tail := by
  have hsentence : j.sentence = s.sentence := congrArg tokens hcut
  obtain ⟨hstatement, -⟩ := isStatement_of_statement h
  rw [← hsentence] at hstatement
  obtain ⟨node', hj⟩ := statement_eq_ok hstatement
  -- read by themselves, the two are the same
  have halone := statement_cut s
  have halone' := statement_cut j
  rw [h] at halone
  rw [hj] at halone'
  obtain ⟨v, hv⟩ := halone
  obtain ⟨v', hv'⟩ := halone'
  rw [hcut, hv] at hv'
  cases hv'
  exact hj

/-- Wherever the line ends, a statement is read in the same way: its tree has only locations of
tokens in it. -/
theorem statement_of_stop {s rest : TokenStream} {node : Node} (h : statement s = .ok node rest)
    {stop : Location} (hstop : ∀ t ∈ s.tokens, t.location ≠ stop) :
    ∃ rest', statement ⟨s.tokens, stop⟩ = .ok node rest' := by
  let place : Location → Location := fun l => if l = stop then s.stop else l
  have hplace : ∀ {l : Location}, l ≠ stop → place l = l := fun hl => if_neg hl
  -- the line with its new end is moved to the old one
  have hmoved : (mk s.tokens stop).moved place = s := by
    refine TokenStream.ext ((List.map_congr_left fun t ht => ?_).trans (List.map_id _)) (if_pos rfl)
    exact congrArg (Token.mk t.lexeme) (hplace (hstop t ht))
  have hrun : statement ((mk s.tokens stop).moved place) = _ := statement_moved _
  rw [hmoved, h] at hrun
  cases hnew : statement ⟨s.tokens, stop⟩ with
  | error e t =>
    rw [hnew] at hrun
    cases hrun
  | ok node' rest' =>
    rw [hnew] at hrun
    have hnode : node'.moved place = node' :=
      moved_eq_of_statement hnew fun t ht => hplace (hstop t ht)
    dsimp only at hrun
    rw [hnode] at hrun
    cases hrun
    exact ⟨rest', rfl⟩

/-- A statement with a semicolon behind it is read in the same way in front of other tokens. -/
theorem statement_append {s rest : TokenStream} {node : Node} (h : statement s = .ok node rest)
    {semicolon : Token} {behind : List Token} (hafter : s.afterSentence.tokens = semicolon :: behind)
    (more : List Token) (stop : Location) :
    statement ⟨s.tokens ++ more, stop⟩ = .ok node ⟨behind ++ more, stop⟩ := by
  have hafterSentence : s.afterSentence = ⟨semicolon :: behind, s.stop⟩ :=
    TokenStream.ext hafter rfl
  obtain ⟨hsentence, hrest⟩ :=
    s.sentence_append (isSemicolon_of_afterSentence hafter) (behind ++ more) stop
  have htokens : s.sentence ++ semicolon :: (behind ++ more) = s.tokens ++ more := by
    rw [← s.sentence_append_afterSentence, hafter, List.append_assoc, List.cons_append]
  rw [htokens] at hsentence hrest
  have hcut : (mk (s.tokens ++ more) stop).cut = s.cut := by
    rw [cut, hsentence, hrest, cut, hafterSentence]
    rfl
  rw [statement_of_cut h hcut, hrest]
  rfl

/-- A statement that ends with its line is read in the same way in front of a semicolon. -/
theorem statement_append_semicolon {s rest : TokenStream} {node : Node}
    (h : statement s = .ok node rest) (hafter : s.afterSentence.tokens = []) {semicolon : Token}
    (hsemicolon : semicolon.isSemicolon = true)
    (hfresh : ∀ t ∈ s.tokens, t.location ≠ semicolon.location) (more : List Token)
    (stop : Location) :
    statement ⟨s.tokens ++ semicolon :: more, stop⟩ = .ok node ⟨more, stop⟩ := by
  have htokens : s.sentence = s.tokens := by
    rw [← s.sentence_append_afterSentence, hafter, List.append_nil]
  obtain ⟨hsentence, hrest⟩ := s.sentence_append hsemicolon more stop
  rw [htokens] at hsentence hrest
  -- the line is cut off where the semicolon is, which is a new end for it
  have hcut : (mk (s.tokens ++ semicolon :: more) stop).cut =
      (mk s.tokens semicolon.location).cut := by
    have hend : (mk s.tokens semicolon.location).afterSentence = ⟨[], semicolon.location⟩ :=
      TokenStream.ext hafter rfl
    rw [cut, hsentence, hrest, cut, hend]
    exact congrArg (mk · semicolon.location) htokens.symm
  obtain ⟨rest', hstop⟩ := statement_of_stop h hfresh
  rw [statement_of_cut hstop hcut, hrest]
  rfl

end Grammar

/-! ### Lines in front of other lines -/

namespace Script

/-- Lines that are joined are read one after the other: if the first one is read to its end, and is
followed by a semicolon unless it has one there already, then the statements of both are read, up to
where the second one fails. -/
theorem read_append {s : TokenStream} (hread : (read s).1.failure = none) {semicolon : Token}
    (hsemicolon : semicolon.isSemicolon = true)
    (hfresh : ∀ t ∈ s.tokens, t.location ≠ semicolon.location) (t : TokenStream) :
    (read ⟨s.tokens ++ ((if s.isOpen then [semicolon] else []) ++ t.tokens), t.stop⟩).1 =
      ⟨(read s).1.statements ++ (read t).1.statements, (read t).1.failure⟩ := by
  induction hlen : s.length using Nat.strongRecOn generalizing s with
  | _ n ih =>
    by_cases hend : s.atEnd = true
    · have hnone : s.tokens = [] := List.isEmpty_iff.1 hend
      have hclosed : s.isOpen = false := by rw [TokenStream.isOpen, hnone]; rfl
      rw [read_of_atEnd hend, hnone, hclosed]
      rfl
    rw [read_eq s, if_neg hend] at hread ⊢
    cases hrun : Grammar.statement s with
    | error e rest =>
      rw [hrun] at hread
      cases hread
    | ok node rest =>
      rw [hrun] at hread
      have hlt := Grammar.statement_progressive hrun
      obtain ⟨-, rfl⟩ := Grammar.isStatement_of_statement hrun
      generalize hglue : (if s.isOpen then [semicolon] else []) ++ t.tokens = more
      -- the first statement of the joined lines is that of the first line
      have hfirst : ∃ rest', Grammar.statement ⟨s.tokens ++ more, t.stop⟩ = .ok node rest' ∧
          (read rest').1 = ⟨(read s.afterSentence.tail).1.statements ++ (read t).1.statements,
            (read t).1.failure⟩ := by
        cases hafter : s.afterSentence.tokens with
        | nil =>
          have hopen : s.isOpen = true :=
            TokenStream.isOpen_of_afterSentence (Bool.eq_false_iff.2 hend) hafter
          rw [hopen] at hglue
          subst hglue
          refine ⟨_, Grammar.statement_append_semicolon hrun hafter hsemicolon hfresh t.tokens t.stop,
            ?_⟩
          have htail : s.afterSentence.tail.atEnd = true := by
            rw [TokenStream.atEnd, TokenStream.tail, hafter]
            rfl
          rw [read_of_atEnd htail]
          rfl
        | cons x behind =>
          refine ⟨_, Grammar.statement_append hrun hafter more t.stop, ?_⟩
          have htail : s.afterSentence.tail = ⟨behind, s.stop⟩ :=
            TokenStream.ext (congrArg List.tail hafter) rfl
          rw [TokenStream.isOpen_eq hafter s.stop] at hglue
          rw [htail] at hlt hread ⊢
          subst hglue
          refine ih behind.length ?_ hread ?_ rfl
          · rw [← hlen]
            exact hlt
          · intro x hx
            refine hfresh x ?_
            rw [← s.sentence_append_afterSentence, hafter]
            exact List.mem_append_right _ (List.mem_cons_of_mem _ hx)
      obtain ⟨rest', hstatement, hrest⟩ := hfirst
      have hopen : ¬ (TokenStream.mk (s.tokens ++ more) t.stop).atEnd = true := by
        intro hnone
        exact hend (List.isEmpty_iff.2 (List.append_eq_nil_iff.1 (List.isEmpty_iff.1 hnone)).1)
      rw [read_eq, if_neg hopen, hstatement]
      dsimp only
      rw [hrest]
      rfl

end Script

/-! ### Reading joined lines -/

/-- What joins a line with the next one: a line feed, and if the last token is there and no
semicolon, then also a semicolon on a line of its own. -/
def TokenStream.joint (s : TokenStream) : String := if s.isOpen then "\n;\n" else "\n"

namespace Source

/-- A text of one word is read as that word. -/
theorem tokenize_word {cs : List Char} {l stop : Location} {t : Token}
    (h : (mk cs l).next = (.ok (.token t), ⟨[], stop⟩)) :
    (mk cs l).tokenize = .ok ⟨[t], stop⟩ :=
  tokenize_of_token h (tokenize_of_endOfInput rfl)

/-- The tokens of joined lines are those of the first one, a semicolon if there is one in the joint,
and those of the second one as many lines further down as there are line feeds in front of it. -/
theorem tokenize_joined {a b : String} {s t : TokenStream} (ha : (ofString a).tokenize = .ok s)
    (hb : (ofString b).tokenize = .ok t) :
    ∃ semicolon : Token, semicolon.isSemicolon = true ∧
      (∀ x ∈ s.tokens, x.location ≠ semicolon.location) ∧
      let moved := t.moved (.down ((a ++ s.joint).toList.count '\n'))
      (ofString (a ++ s.joint ++ b)).tokenize =
        .ok ⟨s.tokens ++ ((if s.isOpen then [semicolon] else []) ++ moved.tokens), moved.stop⟩ := by
  refine ⟨⟨.operator ";", (Location.start.advance a.toList).after '\n'⟩, rfl, ?_, ?_⟩
  · -- the semicolon is on a line of its own
    intro x hx heq
    have hline := line_le_of_tokenize ha x hx
    rw [heq] at hline
    exact Nat.not_succ_le_self _ hline
  · have hsource : ∀ text : String, ofString text = ⟨text.toList, .start⟩ := fun _ => rfl
    rw [hsource] at ha hb
    rw [hsource, TokenStream.joint]
    cases s.isOpen with
    | false =>
      have hchars : (a ++ "\n" ++ b).toList = a.toList ++ '\n' :: b.toList := by simp
      have hbehind : (a ++ "\n").toList = a.toList ++ ['\n'] := by simp
      simp only [Bool.false_eq_true, ↓reduceIte]
      rw [hchars, hbehind, tokenize_lineBreak, ha, Location.advance_lineBreak]
      dsimp only
      rw [tokenize_down, hb]
      rfl
    | true =>
      have hchars : (a ++ "\n;\n" ++ b).toList =
          a.toList ++ '\n' :: ([';'] ++ '\n' :: b.toList) := by simp
      have hbehind : (a ++ "\n;\n").toList = a.toList ++ ['\n', ';'] ++ ['\n'] := by simp
      -- the semicolon is a line of its own between the two
      have hplace : ((((Location.start.advance a.toList).after '\n').advance [';']).after '\n') =
          Location.start.down ((a.toList ++ ['\n', ';'] ++ ['\n']).count '\n') := by
        rw [← Location.advance_lineBreak, Location.advance_append]
        rfl
      simp only [↓reduceIte]
      rw [hchars, hbehind, tokenize_lineBreak, ha]
      dsimp only
      have hsemicolon : (mk [';'] ((Location.start.advance a.toList).after '\n')).tokenize =
          .ok ⟨[_], _⟩ := tokenize_word rfl
      rw [tokenize_lineBreak, hsemicolon, hplace]
      dsimp only
      rw [tokenize_down, hb]
      rfl

end Source

/-! ### Entering joined lines -/

namespace Session

/-- What two lines have done, one after the other. -/
def Report.append (first second : Report) : Report :=
  ⟨first.outcomes ++ second.outcomes, first.events ++ second.events, second.session⟩

theorem runStatements_append (front behind : List Node) (session : Session) :
    runStatements (front ++ behind) session =
      (runStatements front session).append
        (runStatements behind (runStatements front session).session) := by
  induction front generalizing session with
  | nil => rfl
  | cons node front ih =>
    rw [List.cons_append, runStatements, runStatements, ih]
    simp [Report.append]

/-- A line with tokens does what the script does that they are. -/
theorem enter_of_tokenize {session : Session} {line : String} {s : TokenStream}
    (h : (Source.ofString line).tokenize = .ok s) :
    session.enter line = session.runScript (Script.read s).1 := by
  rw [enter, Script.ofString_of_tokenize h]

/-- Statements in front of a script are evaluated before it. -/
theorem runScript_append (session : Session) (front : List Node) (script : Script) :
    session.runScript ⟨front ++ script.statements, script.failure⟩ =
      (runStatements front session).append
        ((runStatements front session).session.runScript script) := by
  unfold runScript
  rw [runStatements_append]
  cases script.failure with
  | none => rfl
  | some e => simp [Report.append]

/-- **Joining two lines does not change what they do.**  Let both lines be read as tokens, and let
every statement of the first one be read.  Join them with a line feed, and also with a semicolon
unless the first one ends with one or has no tokens.  Then what becomes of the joined line is what
becomes of the first one, and then, in the session that it leaves, of the second one, with every
location as many lines further down as there are line feeds in front of it. -/
theorem enter_joined (session : Session) {a b : String} {s t : TokenStream}
    (ha : (Source.ofString a).tokenize = .ok s)
    (hread : ∀ e, Outcome.syntaxError e ∉ (session.enter a).outcomes)
    (hb : (Source.ofString b).tokenize = .ok t) :
    session.enter (a ++ s.joint ++ b) =
      (session.enter a).append (((session.enter a).session.enter b).moved
        (.down ((a ++ s.joint).toList.count '\n'))) := by
  have hnone : (Script.read s).1.failure = none := by
    rw [enter_of_tokenize ha, runScript] at hread
    cases hfailure : (Script.read s).1.failure with
    | none => rfl
    | some e =>
      rw [hfailure] at hread
      exact absurd (List.mem_append_right _ (List.mem_singleton_self _)) (hread e)
  have hfirst : session.enter a = runStatements (Script.read s).1.statements session := by
    rw [enter_of_tokenize ha, runScript, hnone]
  obtain ⟨semicolon, hsemicolon, hfresh, hjoined⟩ := Source.tokenize_joined ha hb
  rw [enter_of_tokenize hjoined, Script.read_append hnone hsemicolon hfresh, runScript_append,
    ← hfirst, Script.read_moved, runScript_moved, enter_of_tokenize hb]

/-- Of two names that are not declared, the second one is two lines further down when they are
joined: the semicolon between them has a line of its own. -/
theorem enter_joined_names :
    (empty.enter ("x" ++ "\n;\n" ++ "y")).outcomes =
      [.evaluated (.reference "x" ⟨1, 1⟩) (.error (.undefinedVariable "x" ⟨1, 1⟩)),
        .evaluated (.reference "y" ⟨3, 1⟩) (.error (.undefinedVariable "y" ⟨3, 1⟩))] := by
  have hx : (Source.ofString "x").tokenize = .ok ⟨[⟨.identifier "x", ⟨1, 1⟩⟩], ⟨1, 2⟩⟩ :=
    Source.tokenize_word rfl
  have hy : (Source.ofString "y").tokenize = .ok ⟨[⟨.identifier "y", ⟨1, 1⟩⟩], ⟨1, 2⟩⟩ :=
    Source.tokenize_word rfl
  have hfirst : empty.enter "x" = ⟨[.evaluated (.reference "x" ⟨1, 1⟩)
      (.error (.undefinedVariable "x" ⟨1, 1⟩))], [.evaluate .reference], empty⟩ := by
    rw [enter_of_tokenize hx]
    rfl
  have hread : ∀ e, Outcome.syntaxError e ∉ (empty.enter "x").outcomes := by
    rw [hfirst]
    exact fun e he => nomatch List.mem_singleton.1 he
  have hsecond : (empty.enter "y").outcomes = [.evaluated (.reference "y" ⟨1, 1⟩)
      (.error (.undefinedVariable "y" ⟨1, 1⟩))] := by
    rw [enter_of_tokenize hy]
    rfl
  have hbehind : ("x" ++ "\n;\n").toList.count '\n' = 2 := by decide
  have hjoined := congrArg Report.outcomes (enter_joined empty hx hread hy)
  rw [hfirst] at hjoined
  refine hjoined.trans ?_
  show _ :: (empty.enter "y").outcomes.map
    (Outcome.moved (.down (("x" ++ "\n;\n").toList.count '\n'))) = _
  rw [hsecond, hbehind, List.map_singleton, Outcome.moved, Node.moved, Node.map]
  rfl

end Session

end Reckoner
