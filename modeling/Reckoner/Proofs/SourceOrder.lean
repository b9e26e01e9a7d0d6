import Reckoner.Proofs.Conversation
import Reckoner.Proofs.Diagnostics
import Reckoner.Proofs.Yields

/-!
# Trees follow the source

The tokens of a text stand one behind the other, and a tree is made of the tokens it was read from,
in their order.  So its nodes do as well, if they are listed as their tokens come in the text: an
operation between its sides, because its token is the operator, and any other node in front of what
is below it.

Readers take the tokens off a line from the front.  What they have read of a line, statement by
statement, whatever they were asked and whatever could not be read in between, is therefore listed
in the order of the text as well.

## Main definitions

* `Location.Before` — the order of the places in a text.
* `Node.locations` — the places of the nodes of a tree, in the order of their tokens.
* `TokenTape.consumed` — the tokens that have been read.
* `LineReader.statements` — the statements that a conversation brings.

## Main results

* `ReadsAll.pairwise_before` — the tokens of a text are in order.
* `Node.Yields.locations_sublist` — a tree has its locations from its tokens, and in their order.
* `LineReader.statements_inSourceOrder` — **the trees of a line follow its text.**
-/

namespace Reckoner

/-! ### The order of a text -/

namespace Location

/-- `l.Before l'`: the place `l'` is on a later line than `l`, or further along the same line. -/
def Before (l l' : Location) : Prop :=
  l.line < l'.line ∨ l.line = l'.line ∧ l.column < l'.column

instance (l l' : Location) : Decidable (l.Before l') := inferInstanceAs (Decidable (_ ∨ _))

variable {l l' l'' : Location}

theorem Before.trans (h : l.Before l') (h' : l'.Before l'') : l.Before l'' := by
  unfold Before at *
  omega

/-- What follows a character is behind it. -/
theorem before_after (l : Location) (c : Char) : l.Before (l.after c) := by
  unfold Before after
  split
  · exact .inl (Nat.lt_succ_self _)
  · exact .inr ⟨rfl, Nat.lt_succ_self _⟩

/-- What follows a run of characters is behind what stands in front of it. -/
theorem Before.advance (h : l.Before l') (cs : List Char) : l.Before (l'.advance cs) := by
  induction cs generalizing l' with
  | nil => exact h
  | cons c cs ih => exact ih (h.trans (l'.before_after c))

/-- What follows a run of characters is behind its first character. -/
theorem before_advance (l : Location) {cs : List Char} (h : cs ≠ []) : l.Before (l.advance cs) := by
  cases cs with
  | nil => exact absurd rfl h
  | cons c cs => exact (l.before_after c).advance cs

end Location

/-- Every word has characters. -/
theorem Spells.ne_nil {text : List Char} {w : Lexeme} (h : Spells text w) : text ≠ [] := by
  obtain ⟨first, more, hread⟩ := h.readsBack_nil
  rw [hread.eq_cons]
  exact List.cons_ne_nil first more

namespace ReadsAll

variable {l origin : Location} {pieces : List Piece} {tokens : List Token}

/-- Tokens are behind whatever is in front of the text that they are read from. -/
theorem forall_before (h : ReadsAll l pieces (tokens.map .ok)) (horigin : origin.Before l) :
    ∀ t ∈ tokens, origin.Before t.location := by
  induction tokens generalizing l pieces with
  | nil => exact List.forall_mem_nil _
  | cons t tokens ih =>
    cases h with
    | @cons _ p _ _ _ hresult hrest =>
      cases hresult with
      | token _ =>
        exact List.forall_mem_cons.2 ⟨horigin.advance p.gap, ih hrest (horigin.advance p.chars)⟩

/-- The tokens of a text stand one behind the other. -/
theorem pairwise_before (h : ReadsAll l pieces (tokens.map .ok)) :
    (tokens.map Token.location).Pairwise Location.Before := by
  induction tokens generalizing l pieces with
  | nil => exact .nil
  | cons t tokens ih =>
    cases h with
    | @cons _ p _ _ _ hresult hrest =>
      cases hresult with
      | token hspells =>
        -- the next text begins where the word ends, which is behind where it begins
        have hnext : (l.advance p.gap).Before (l.advance p.chars) := by
          rw [Piece.chars, Location.advance_append]
          exact (l.advance p.gap).before_advance hspells.ne_nil
        refine .cons ?_ (ih hrest)
        rw [List.forall_mem_map]
        exact hrest.forall_before hnext

end ReadsAll

/-- The tokens of a text are read from a well spaced row that it is. -/
theorem Source.exists_row_of_tokenize {text : String} {s : TokenStream}
    (h : (Source.ofString text).tokenize = .ok s) :
    ∃ r : Row, r.IsWellSpaced ∧ r.chars = text.toList ∧
      ReadsAll .start r.pieces (s.tokens.map .ok) := by
  obtain ⟨r, hwell, hchars⟩ := exists_row text.toList
  obtain ⟨results, hreads⟩ := hwell.exists_readsAll .start
  have htokenize := hwell.tokenize_eq hreads
  rw [hchars] at htokenize
  rw [Source.ofString, htokenize] at h
  rcases results_cases results with ⟨tokens, rfl⟩ | ⟨tokens, e, rest, rfl⟩
  · rw [mapM_id_ok] at h
    cases h
    exact ⟨r, hwell, hchars, hreads⟩
  · rw [mapM_id_error] at h
    cases h

/-- The tokens of a text stand one behind the other. -/
theorem Source.pairwise_before {text : String} {s : TokenStream}
    (h : (Source.ofString text).tokenize = .ok s) :
    (s.tokens.map Token.location).Pairwise Location.Before := by
  obtain ⟨r, -, -, hreads⟩ := exists_row_of_tokenize h
  exact hreads.pairwise_before

/-! ### The order of a tree -/

mutual

/-- The places of the nodes of a tree: an operation between its sides, and any other node in front
of what is below it. -/
def Node.locations : Node → List Location
  | .number _ l => [l]
  | .reference _ l => [l]
  | .declaration _ initial l => l :: initial.locations
  | .assignment _ value l => l :: value.locations
  | .binary _ left right l => left.locations ++ l :: right.locations
  | .call _ args l => l :: Node.listLocations args
  | .prototype signature => [signature.location]
  | .function signature body l => l :: signature.location :: body.locations

/-- The places of the nodes of trees, tree by tree. -/
def Node.listLocations : List Node → List Location
  | [] => []
  | node :: nodes => node.locations ++ Node.listLocations nodes

end

/-- The places of the nodes of what is read. -/
def Grammar.Reading.locations : Grammar.Reading → List Location
  | .tree node => node.locations
  | .arguments nodes => Node.listLocations nodes

section

variable {ts : List Token}

/-- Expressions have their locations from their tokens, and in their order. -/
theorem Grammar.Yields.locations_sublist {reading : Grammar.Reading}
    (h : Grammar.Yields reading ts) :
    reading.locations.Sublist (ts.map Token.location) := by
  induction h with
  | number => exact .refl _
  | reference => exact .refl _
  | parenthesized _ ih =>
    rw [List.map_cons, List.map_append]
    exact (ih.trans (List.sublist_append_left _ _)).cons _
  | assignment _ ih => exact (ih.cons _).cons_cons _
  | binary _ _ ihleft ihright =>
    rw [List.map_append]
    exact ihleft.append (ihright.cons_cons _)
  | call _ ih => exact (ih.cons _).cons_cons _
  | noArgument => exact List.nil_sublist _
  | lastArgument _ ih =>
    rw [List.map_append]
    exact ih.append (List.nil_sublist _)
  | moreArguments _ _ ih ihmore =>
    rw [List.map_append]
    exact ih.append (ihmore.cons _)

/-- The place of a signature is that of its first token. -/
theorem Signature.Yields.location_sublist {signature : Signature} (h : signature.Yields ts) :
    [signature.location].Sublist (ts.map Token.location) := by
  obtain ⟨-, hfirst⟩ := h
  rw [← List.head?_map] at hfirst
  obtain ⟨more, hts⟩ := List.head?_eq_some_iff.1 hfirst
  rw [hts]
  exact (List.nil_sublist more).cons_cons _

/-- Trees have their locations from their tokens, and in their order. -/
theorem Node.Yields.locations_sublist {node : Node} (h : node.Yields ts) :
    node.locations.Sublist (ts.map Token.location) := by
  cases h with
  | declaration => exact .refl _
  | initialized hinitial => exact ((hinitial.locations_sublist.cons _).cons _).cons_cons _
  | function hsignature hbody =>
    rw [List.map_cons, List.map_append]
    exact (hsignature.location_sublist.append (hbody.locations_sublist.cons _)).cons_cons _
  | prototype hsignature => exact hsignature.location_sublist.cons _
  | expression hexpression => exact hexpression.locations_sublist

end

/-- Statements have their locations from their tokens, and in their order. -/
theorem locations_sublist_of_yields {nodes : List Node} {tss : List (List Token)}
    (h : List.Forall₂ Node.Yields nodes tss) :
    (Node.listLocations nodes).Sublist (tss.flatten.map Token.location) := by
  induction h with
  | nil => exact .refl _
  | cons hnode _ ih =>
    rw [List.flatten_cons, List.map_append]
    exact hnode.locations_sublist.append ih

/-! ### What a conversation brings -/

/-- `s.Brings nodes t`: between the front of `s` and `t`, which is what is left, there are the
tokens of the statements `nodes`, one statement behind the other. -/
def TokenStream.Brings (s : TokenStream) (nodes : List Node) (t : TokenStream) : Prop :=
  ∃ (tss : List (List Token)) (used : List Token), List.Forall₂ Node.Yields nodes tss ∧
    tss.flatten.Sublist used ∧ s.Uses used t

namespace TokenStream

variable {s t u : TokenStream} {nodes more : List Node}

/-- What is left of a stream can be reached without a statement. -/
theorem IsRestOf.brings_nil (h : t.IsRestOf s) : s.Brings [] t := by
  obtain ⟨-, used, huses⟩ := h
  exact ⟨[], used, .nil, List.nil_sublist used, huses.symm⟩

theorem Brings.append (h : s.Brings nodes t) (hmore : t.Brings more u) :
    s.Brings (nodes ++ more) u := by
  obtain ⟨tss, used, hyields, hsublist, huses⟩ := h
  obtain ⟨tss', used', hyields', hsublist', huses'⟩ := hmore
  refine ⟨tss ++ tss', used ++ used', List.rel_append hyields hyields', ?_, huses.append huses'⟩
  rw [List.flatten_append]
  exact hsublist.append hsublist'

end TokenStream

/-- A statement is made of the tokens in front of what is left. -/
theorem Grammar.brings_of_statement {s u : TokenStream} {node : Node}
    (h : Grammar.statement s = .ok node u) : s.Brings [node] u := by
  obtain ⟨ts, stop, hyields, -, huses⟩ := Grammar.yields_of_statement h
  refine ⟨[ts], ts ++ stop, .cons hyields .nil, ?_, huses⟩
  rw [List.flatten_singleton]
  exact List.sublist_append_left ts stop

theorem Script.brings_readUpTo (bound : Nat) (s : TokenStream) :
    s.Brings (Script.readUpTo bound s).1.statements (Script.readUpTo bound s).2 := by
  induction bound generalizing s with
  | zero => exact (TokenStream.IsRestOf.refl s).brings_nil
  | succ bound ih =>
    rw [readUpTo]
    split
    · exact (TokenStream.IsRestOf.refl s).brings_nil
    split
    · next node rest hrun => exact (Grammar.brings_of_statement hrun).append (ih rest)
    · next e rest hrun => exact (Grammar.statement_forward.of_error hrun).brings_nil

namespace TokenTape

variable {tape later : TokenTape}

/-- The tokens that have been read. -/
def consumed (tape : TokenTape) : List Token := tape.line.tokens.take tape.position

/-- What is left further down the line is a rest of what was left. -/
theorem LeadsTo.isRestOf (h : tape.LeadsTo later) : later.unread.IsRestOf tape.unread := by
  obtain ⟨hline, hposition⟩ := h
  unfold unread
  rw [hline]
  exact ⟨rfl, List.drop_suffix_drop_left _ hposition⟩

/-- The tokens between the front of a line and what is left are those that have been read. -/
theorem eq_consumed {ts : List Token} (h : tape.line.Uses ts tape.unread) : ts = tape.consumed := by
  have hline : tape.line.tokens = tape.consumed ++ tape.unread.tokens :=
    (List.take_append_drop _ _).symm
  exact List.append_cancel_right (h.symm.trans hline)

end TokenTape

namespace LineReader

/-- The statements that a reply brings. -/
def Reply.statements : Reply → List Node
  | .statement (.ok node) => [node]
  | .all (.ok nodes) => nodes
  | .handled (some node) => [node]
  | _ => []

/-- The statements that a conversation brings. -/
def statements (r : LineReader) (queries : List Query) : List Node :=
  (r.turns queries).flatMap fun turn => turn.reply.statements

theorem brings_readStatement {r : LineReader} {node : Node} (h : r.readStatement.1 = .ok node) :
    r.tape.unread.Brings [node] r.readStatement.2.tape.unread := by
  cases hrun : Grammar.statement r.tape.unread with
  | error e s =>
    rw [readStatement_of_error hrun] at h
    cases h
  | ok node s =>
    rw [readStatement_of_ok hrun] at h ⊢
    cases h
    rw [unread_seek_of_ok hrun]
    exact Grammar.brings_of_statement hrun

theorem brings_readAll {r : LineReader} {nodes : List Node} (h : r.readAll.1 = .ok nodes) :
    r.tape.unread.Brings nodes r.readAll.2.tape.unread := by
  have hrest : r.readAll.2.tape.unread = (Script.read r.tape.unread).2 :=
    TokenTape.unread_seek (Script.isRestOf_readUpTo _ _)
  have hbrings : r.tape.unread.Brings (Script.read r.tape.unread).1.statements
      (Script.read r.tape.unread).2 := Script.brings_readUpTo _ _
  have hscript : (Script.read r.tape.unread).1.toExcept = .ok nodes := h
  unfold Script.toExcept at hscript
  split at hscript
  · cases hscript
    rwa [hrest]
  · cases hscript

/-- The statements of a reply are made of the tokens that it takes off the line. -/
theorem brings_answer (r : LineReader) (query : Query) :
    r.tape.unread.Brings (r.answer query).1.statements (r.answer query).2.tape.unread := by
  have hnothing := (r.leadsTo_answer query).isRestOf.brings_nil
  cases query with
  | statement =>
    unfold answer at hnothing ⊢
    cases hresult : r.readStatement.1 with
    | ok node => exact brings_readStatement hresult
    | error e => exact hnothing
  | all =>
    unfold answer at hnothing ⊢
    cases hresult : r.readAll.1 with
    | ok nodes => exact brings_readAll hresult
    | error e => exact hnothing
  | handle =>
    unfold answer at hnothing ⊢
    cases hresult : r.readStatement.1 with
    | ok node =>
      rw [handle_of_ok hresult]
      exact brings_readStatement hresult
    | error e =>
      rw [handle_of_error hresult] at hnothing ⊢
      exact hnothing

/-- The statements of a conversation are made of the tokens that it takes off the line. -/
theorem brings_afterAll (r : LineReader) (queries : List Query) :
    r.tape.unread.Brings (r.statements queries) (r.afterAll queries).tape.unread := by
  induction queries generalizing r with
  | nil => exact (TokenStream.IsRestOf.refl _).brings_nil
  | cons query queries ih => exact (r.brings_answer query).append (ih (r.answer query).2)

/-- **The trees of a line follow its text.**  Whatever a reader is asked about a text whose tokens
can be read, the statements that it brings are made of the tokens it has read, one statement behind
the other: a number and a name are located where their token is, an operation where its operator is,
a declaration and a function where their keyword is, a signature where its name or else its
parenthesis is, and the zero of a name that is given no value where that name is.  If the nodes are
listed as their tokens come, then each is behind the one in front of it. -/
theorem statements_inSourceOrder {text : String} {r : LineReader} (h : ofString? text = .ok r)
    (queries : List Query) :
    (∃ tss : List (List Token), List.Forall₂ Node.Yields (r.statements queries) tss ∧
        tss.flatten.Sublist (r.afterAll queries).tape.consumed) ∧
      (Node.listLocations (r.statements queries)).Pairwise Location.Before := by
  obtain ⟨tss, used, hyields, hsublist, huses⟩ := r.brings_afterAll queries
  cases htokenize : (Source.ofString text).tokenize with
  | error e =>
    rw [ofString?_of_malformed htokenize] at h
    cases h
  | ok s =>
    rw [ofString?_of_tokenize htokenize] at h
    cases h
    -- the reader starts at the front of the line
    have hconsumed : used = ((ofTape (.ofStream s)).afterAll queries).tape.consumed := by
      apply TokenTape.eq_consumed
      rw [((ofTape (.ofStream s)).leadsTo_afterAll queries).line_eq]
      exact huses
    rw [hconsumed] at hsublist
    refine ⟨⟨tss, hyields, hsublist⟩, ?_⟩
    have hline := hsublist.trans (List.take_sublist _ _)
    rw [((ofTape (.ofStream s)).leadsTo_afterAll queries).line_eq] at hline
    have hlocations := (locations_sublist_of_yields hyields).trans (hline.map Token.location)
    exact (Source.pairwise_before htokenize).sublist hlocations

/-- A statement that cannot be read is gone on behind, and the order of the text is kept.  The zero
of `let x` is located where the name is. -/
theorem statements_inSourceOrder_two_lines :
    let queries : List Query := [.statement, .statement, .handle, .all]
    ∃ r, ofString? "let x; 1 x * f(2)\n; extern (a); function g() => x = 3" = .ok r ∧
      Node.listLocations (r.statements queries) =
        [⟨1, 1⟩, ⟨1, 5⟩, ⟨1, 10⟩, ⟨1, 12⟩, ⟨1, 14⟩, ⟨1, 16⟩, ⟨2, 10⟩, ⟨2, 15⟩, ⟨2, 24⟩, ⟨2, 31⟩,
          ⟨2, 35⟩] ∧
      (∃ tss : List (List Token), List.Forall₂ Node.Yields (r.statements queries) tss ∧
        tss.flatten.Sublist (r.afterAll queries).tape.consumed) ∧
      (Node.listLocations (r.statements queries)).Pairwise Location.Before := by
  intro queries
  have hrun : ((ofString? "let x; 1 x * f(2)\n; extern (a); function g() => x = 3").toOption.map
      fun r => Node.listLocations (r.statements queries)) =
        some [⟨1, 1⟩, ⟨1, 5⟩, ⟨1, 10⟩, ⟨1, 12⟩, ⟨1, 14⟩, ⟨1, 16⟩, ⟨2, 10⟩, ⟨2, 15⟩, ⟨2, 24⟩,
          ⟨2, 31⟩, ⟨2, 35⟩] := by decide +kernel
  cases hread : ofString? "let x; 1 x * f(2)\n; extern (a); function g() => x = 3" with
  | error e =>
    rw [hread] at hrun
    cases hrun
  | ok r =>
    rw [hread] at hrun
    exact ⟨r, rfl, Option.some.inj hrun, statements_inSourceOrder hread queries⟩

end LineReader

end Reckoner
