import Mathlib.Data.List.Forall2
import Reckoner.Grammar.LineReader
import Reckoner.Proofs.CallStack

/-!
# Conversations with a line reader

A line reader is asked for one statement, for all statements, or to handle one.  It may be asked
anything at any time, also after it has failed, and it answers from where it is on the line.

Nothing of what it was asked before shows in an answer, except through the position.  The failures
that it records do not; and a reader that counts levels, and whose procedures need room to call each
other, does not show that it does, because its counter is back at zero whenever it answers.

The record of failures is complete and contains nothing else: one failure for each statement that
was handled and could not be read.  After the first of these the reader is at the end of the line
for good.

## Main definitions

* `LineReader.Query`, `LineReader.Reply`, `LineReader.answer` — what a reader can be asked, and what
  it answers.
* `LineReader.Turn`, `LineReader.turns`, `LineReader.afterAll` — a query with its reply, those of a
  whole conversation, and the reader behind it.
* `CountingReader` — a line reader with a counter of levels, and its answers as long as there is
  room for calls.
* `LineReader.Turn.gaveUp` — that a statement was handled and could not be read.
* `LineReader.Faithful` — what can be said of every conversation.

## Main results

* `LineReader.of_mem_turns` — a turn is an answer of a reader further down the line.
* `LineReader.forall₂_failures` — the record of failures is exact.
* `CountingReader.converse_eq` — a counting reader answers as if it did not count.
* `LineReader.faithful` — **what was asked before is forgotten, but for the record.**
-/

namespace Reckoner

/-! ### Going on along a line -/

namespace TokenTape

/-- `tape.LeadsTo later`: the tape `later` is of the same line and not behind. -/
structure LeadsTo (tape later : TokenTape) : Prop where
  /-- The line is the same. -/
  line_eq : later.line = tape.line
  /-- The position has not gone back. -/
  position_le : tape.position ≤ later.position

variable {tape later last : TokenTape}

theorem LeadsTo.refl (tape : TokenTape) : tape.LeadsTo tape := ⟨rfl, Nat.le_refl _⟩

theorem LeadsTo.trans (h : tape.LeadsTo later) (hlast : later.LeadsTo last) : tape.LeadsTo last :=
  ⟨hlast.line_eq.trans h.line_eq, Nat.le_trans h.position_le hlast.position_le⟩

theorem leadsTo_seek {s : TokenStream} (h : s.IsRestOf tape.unread) :
    tape.LeadsTo (tape.seek s) := by
  have hlength := h.length_le
  have hline := tape.length_unread
  refine ⟨rfl, ?_⟩
  show tape.position ≤ tape.line.length - s.length
  omega

theorem leadsTo_discardRest (tape : TokenTape) : tape.LeadsTo tape.discardRest :=
  ⟨rfl, tape.position_le⟩

/-- A tape stays where it is when what is left is sought. -/
theorem seek_unread (tape : TokenTape) : tape.seek tape.unread = tape := by
  have hposition : tape.line.length - tape.unread.length = tape.position := by
    have hline := tape.length_unread
    omega
  unfold seek
  cases tape
  congr

/-- At the end, all tokens have been read. -/
theorem atEnd_iff : tape.atEnd = true ↔ tape.position = tape.line.length := by
  have hline := tape.length_unread
  have hle := tape.position_le
  unfold atEnd TokenStream.atEnd
  rw [List.isEmpty_iff_length_eq_zero]
  unfold TokenStream.length at *
  omega

/-- There is no way back from the end. -/
theorem LeadsTo.atEnd (h : tape.LeadsTo later) (hend : tape.atEnd = true) : later.atEnd = true := by
  have hposition := h.position_le
  have hlater := later.position_le
  rw [atEnd_iff] at hend ⊢
  rw [h.line_eq] at hlater ⊢
  omega

end TokenTape

/-- Lists that go together item by item go together in their last items. -/
theorem rel_getLast?_of_forall₂ {α β : Type} {R : α → β → Prop} {as : List α} {bs : List β}
    (h : List.Forall₂ R as bs) : Option.Rel R as.getLast? bs.getLast? := by
  induction h with
  | nil => exact .none
  | cons hfirst hmore ih =>
    cases hmore with
    | nil => exact .some hfirst
    | cons hsecond hmore => rwa [List.getLast?_cons_cons, List.getLast?_cons_cons]

/-- What is left behind a script is a rest of what the script was read from. -/
theorem Script.isRestOf_readUpTo (bound : Nat) (s : TokenStream) :
    (Script.readUpTo bound s).2.IsRestOf s := by
  induction bound generalizing s with
  | zero => exact .refl s
  | succ bound ih =>
    rw [readUpTo]
    split
    · exact .refl s
    split
    · next node rest hrun => exact (ih rest).trans (Grammar.statement_forward.of_ok hrun)
    · next e rest hrun => exact Grammar.statement_forward.of_error hrun

theorem Script.toExcept_cons (node : Node) (script : Script) :
    (script.cons node).toExcept = script.toExcept.map (node :: ·) := by
  unfold toExcept cons
  cases script.failure <;> rfl

/-- At the end of a line there is no statement. -/
theorem Grammar.statement_of_atEnd {s : TokenStream} (h : s.atEnd = true) :
    Grammar.statement s = .error (.unexpected (.endOfInput s.stop) .expression) s := by
  obtain ⟨_ | ⟨token, tokens⟩, stop⟩ := s
  · rfl
  · cases h

namespace LineReader

/-! ### Questions and answers -/

/-- What a line reader can be asked. -/
inductive Query where
  /-- The next statement. -/
  | statement
  /-- All statements that are left. -/
  | all
  /-- To handle the next statement. -/
  | handle
  deriving DecidableEq, Repr

/-- What a line reader answers. -/
inductive Reply where
  /-- A statement, or why it cannot be read. -/
  | statement (result : Except ParseError Node)
  /-- Statements, or why one of them cannot be read. -/
  | all (result : Except ParseError (List Node))
  /-- A statement, unless it could not be read. -/
  | handled (statement : Option Node)

/-- The answer to a query, and the reader afterwards. -/
def answer (r : LineReader) : Query → Reply × LineReader
  | .statement => (.statement r.readStatement.1, r.readStatement.2)
  | .all => (.all r.readAll.1, r.readAll.2)
  | .handle => (.handled r.handle.1, r.handle.2)

/-- A query and what came of it. -/
structure Turn where
  /-- What was asked. -/
  query : Query
  /-- What was answered. -/
  reply : Reply
  /-- The reader in front of the query. -/
  before : LineReader
  /-- The reader behind the reply. -/
  after : LineReader

/-- The turns of a conversation. -/
def turns : LineReader → List Query → List Turn
  | _, [] => []
  | r, query :: queries =>
    ⟨query, (r.answer query).1, r, (r.answer query).2⟩ :: (r.answer query).2.turns queries

/-- The reader behind a conversation. -/
def afterAll : LineReader → List Query → LineReader
  | r, [] => r
  | r, query :: queries => (r.answer query).2.afterAll queries

/-- Whether a statement was handled and could not be read, so that the rest of the line was given
up. -/
def Turn.gaveUp (turn : Turn) : Bool :=
  match turn.reply with
  | .handled none => true
  | _ => false

variable {r : LineReader} {query : Query} {queries : List Query} {turn : Turn}

theorem handle_of_ok {node : Node} (h : r.readStatement.1 = .ok node) :
    r.handle = (some node, r.readStatement.2) := by
  unfold handle
  rcases hread : r.readStatement with ⟨result, after⟩
  rw [hread] at h
  cases h
  rfl

theorem handle_of_error {e : ParseError} (h : r.readStatement.1 = .error e) :
    r.handle = (none, ⟨r.readStatement.2.tape.discardRest, r.readStatement.2.failures ++ [e]⟩) := by
  unfold handle
  rcases hread : r.readStatement with ⟨result, after⟩
  rw [hread] at h
  cases h
  rfl

/-- What a statement left is what is left to the reader behind it. -/
theorem unread_seek_of_ok {node : Node} {rest : TokenStream}
    (h : Grammar.statement r.tape.unread = .ok node rest) : (r.seek rest).tape.unread = rest :=
  TokenTape.unread_seek (Grammar.statement_forward.of_ok h)

/-! ### What one answer does -/

theorem leadsTo_readStatement (r : LineReader) : r.tape.LeadsTo r.readStatement.2.tape := by
  cases hrun : Grammar.statement r.tape.unread with
  | ok node s =>
    rw [readStatement_of_ok hrun]
    exact TokenTape.leadsTo_seek (Grammar.statement_forward.of_ok hrun)
  | error e s =>
    rw [readStatement_of_error hrun]
    exact TokenTape.leadsTo_seek (Grammar.statement_forward.of_error hrun)

/-- An answer does not lead back on the line. -/
theorem leadsTo_answer (r : LineReader) (query : Query) :
    r.tape.LeadsTo (r.answer query).2.tape := by
  cases query with
  | statement => exact r.leadsTo_readStatement
  | all => exact TokenTape.leadsTo_seek (Script.isRestOf_readUpTo _ _)
  | handle =>
    show r.tape.LeadsTo r.handle.2.tape
    cases hresult : r.readStatement.1 with
    | ok node =>
      rw [handle_of_ok hresult]
      exact r.leadsTo_readStatement
    | error e =>
      rw [handle_of_error hresult]
      exact r.leadsTo_readStatement.trans (TokenTape.leadsTo_discardRest _)

/-- A conversation does not lead back on the line. -/
theorem leadsTo_afterAll (r : LineReader) (queries : List Query) :
    r.tape.LeadsTo (r.afterAll queries).tape := by
  induction queries generalizing r with
  | nil => exact .refl _
  | cons query queries ih => exact (r.leadsTo_answer query).trans (ih _)

/-- Readers at the same place of the same line answer the same and end at the same place, whatever
failures they have recorded. -/
theorem answer_congr {r r' : LineReader} (h : r.tape = r'.tape) (query : Query) :
    (r.answer query).1 = (r'.answer query).1 ∧
      (r.answer query).2.tape = (r'.answer query).2.tape := by
  obtain ⟨tape, failures⟩ := r
  obtain ⟨tape', failures'⟩ := r'
  obtain rfl : tape = tape' := h
  cases query with
  | all => exact ⟨rfl, rfl⟩
  | statement =>
    unfold answer readStatement
    cases Grammar.statement tape.unread <;> exact ⟨rfl, rfl⟩
  | handle =>
    unfold answer handle readStatement
    cases Grammar.statement tape.unread <;> exact ⟨rfl, rfl⟩

/-- What an answer does to the record: a statement that is handled and cannot be read gives up the
line and adds its failure, and nothing else adds anything. -/
theorem answer_cases (r : LineReader) (query : Query) :
    (∃ e, query = .handle ∧ r.readStatement.1 = .error e ∧
      (r.answer query).1 = .handled none ∧ (r.answer query).2.atEnd = true ∧
      (r.answer query).2.failures = r.failures ++ [e]) ∨
    (r.answer query).1 ≠ .handled none ∧ (r.answer query).2.failures = r.failures := by
  have hfailures : r.readStatement.2.failures = r.failures := by
    unfold readStatement
    cases Grammar.statement r.tape.unread <;> rfl
  cases query with
  | statement => exact .inr ⟨nofun, hfailures⟩
  | all => exact .inr ⟨nofun, rfl⟩
  | handle =>
    simp only [answer]
    cases hresult : r.readStatement.1 with
    | ok node =>
      rw [handle_of_ok hresult]
      exact .inr ⟨nofun, hfailures⟩
    | error e =>
      rw [handle_of_error hresult]
      refine .inl ⟨e, trivial, rfl, rfl, TokenTape.atEnd_discardRest _, ?_⟩
      rw [hfailures]

/-- At the end of the line, a statement that is handled cannot be read. -/
theorem answer_handle_of_atEnd (h : r.atEnd = true) :
    (r.answer .handle).1 = .handled none ∧
      (r.answer .handle).2.failures =
        r.failures ++ [.unexpected (.endOfInput r.tape.line.stop) .expression] := by
  have hread := readStatement_of_error (Grammar.statement_of_atEnd h)
  have hhandle := handle_of_error (congrArg Prod.fst hread)
  rw [hread] at hhandle
  unfold answer
  rw [hhandle]
  exact ⟨rfl, rfl⟩

/-! ### What all turns have in common -/

/-- A turn of a conversation is the answer of a reader further down the line. -/
theorem of_mem_turns (h : turn ∈ r.turns queries) :
    r.tape.LeadsTo turn.before.tape ∧
      turn.before.answer turn.query = (turn.reply, turn.after) := by
  induction queries generalizing r with
  | nil => cases h
  | cons query queries ih =>
    rcases List.mem_cons.1 h with rfl | h
    · exact ⟨.refl _, rfl⟩
    · obtain ⟨hleads, hanswer⟩ := ih h
      exact ⟨(r.leadsTo_answer query).trans hleads, hanswer⟩

/-- When a reader has given up, it is at the end. -/
theorem Turn.atEnd_of_gaveUp (hanswer : turn.before.answer turn.query = (turn.reply, turn.after))
    (h : turn.gaveUp = true) : turn.after.atEnd = true := by
  have hreply : turn.reply = .handled none := by
    unfold gaveUp at h
    split at h
    · assumption
    · cases h
  rcases turn.before.answer_cases turn.query with ⟨e, -, -, -, hend, -⟩ | ⟨hother, -⟩
  · rwa [hanswer] at hend
  · rw [hanswer] at hother
    exact absurd hreply hother

/-- The record of failures has one for each statement that was handled and could not be read. -/
theorem forall₂_failures (r : LineReader) (queries : List Query) :
    ∃ more, (r.afterAll queries).failures = r.failures ++ more ∧
      List.Forall₂ (fun turn e => turn.before.readStatement.1 = .error e)
        ((r.turns queries).filter Turn.gaveUp) more := by
  induction queries generalizing r with
  | nil => exact ⟨[], (List.append_nil _).symm, .nil⟩
  | cons query queries ih =>
    obtain ⟨more, hmore, hrecord⟩ := ih (r.answer query).2
    rcases r.answer_cases query with ⟨e, -, hresult, hreply, -, hadded⟩ | ⟨hreply, hadded⟩
    · refine ⟨e :: more, ?_, ?_⟩
      · rw [afterAll, hmore, hadded, List.append_assoc, List.singleton_append]
      · rw [turns, List.filter_cons_of_pos (by simp only [Turn.gaveUp, hreply])]
        exact .cons hresult hrecord
    · refine ⟨more, hmore.trans (congrArg (· ++ more) hadded), ?_⟩
      rw [turns, List.filter_cons_of_neg]
      · exact hrecord
      · unfold Turn.gaveUp
        split
        · contradiction
        · exact Bool.false_ne_true

/-- After a reader has given up, every statement that it is to handle ends in one more failure,
which is about the end of the line. -/
theorem pairwise_turns (r : LineReader) (queries : List Query) :
    (r.turns queries).Pairwise fun earlier later =>
      earlier.gaveUp = true → later.query = .handle →
        later.reply = .handled none ∧ later.after.failures =
          later.before.failures ++ [.unexpected (.endOfInput r.tape.line.stop) .expression] := by
  induction queries generalizing r with
  | nil => exact .nil
  | cons query queries ih =>
    have hleads := r.leadsTo_answer query
    have htail := ih (r.answer query).2
    rw [hleads.line_eq] at htail
    refine .cons ?_ htail
    intro later hlater hgaveUp hhandle
    obtain ⟨hon, hanswer⟩ := of_mem_turns hlater
    have hend : (r.answer query).2.atEnd = true := Turn.atEnd_of_gaveUp rfl hgaveUp
    have hlast := answer_handle_of_atEnd (hon.atEnd hend)
    rw [hhandle] at hanswer
    rw [hanswer, (hleads.trans hon).line_eq] at hlast
    exact hlast

/-! ### All statements, one after the other -/

/-- All statements are read by reading one statement, and then the others. -/
theorem readAll_eq (r : LineReader) :
    r.readAll =
      if r.atEnd then (.ok [], r)
      else
        match r.readStatement with
        | (.ok node, after) => (after.readAll.1.map (node :: ·), after.readAll.2)
        | (.error e, after) => (.error e, after) := by
  have hread : r.readAll =
      ((Script.read r.tape.unread).1.toExcept, r.seek (Script.read r.tape.unread).2) := rfl
  rw [hread, Script.read_eq]
  by_cases hend : r.atEnd = true
  · have hend' : r.tape.unread.atEnd = true := hend
    rw [if_pos hend', if_pos hend]
    have hseek : r.seek r.tape.unread = r :=
      congrArg (LineReader.mk · r.failures) r.tape.seek_unread
    rw [hseek]
    rfl
  · have hmore : ¬ r.tape.unread.atEnd = true := hend
    rw [if_neg hmore, if_neg hend]
    cases hrun : Grammar.statement r.tape.unread with
    | error e rest =>
      rw [readStatement_of_error hrun]
      rfl
    | ok node rest =>
      rw [readStatement_of_ok hrun]
      have hrest := unread_seek_of_ok hrun
      have hrestAll : (r.seek rest).readAll =
          ((Script.read rest).1.toExcept, (r.seek rest).seek (Script.read rest).2) := by
        unfold readAll
        rw [hrest]
      dsimp only
      rw [hrestAll, Script.toExcept_cons]
      rfl

end LineReader

/-! ### Counting readers -/

/-- A line reader that counts the levels which are open. -/
structure CountingReader extends LineReader where
  /-- The number of levels that are open. -/
  level : Nat

namespace CountingReader

/-- Reads one statement, if there is room for the calls that this takes. -/
def readStatement (c : CountingReader) : Option (Except ParseError Node × CountingReader) :=
  match Counted.statement Counted.enough ⟨c.tape.unread, c.level⟩ with
  | .ok node rest => some (.ok node, ⟨c.seek rest.stream, rest.level⟩)
  | .error (.failure e) rest => some (.error e, ⟨c.seek rest.stream, rest.level⟩)
  | .error .exhausted _ => none

/-- Reads all statements that are left, at most `bound` of them, up to the first failure. -/
def readAllUpTo : Nat → CountingReader → Option (Except ParseError (List Node) × CountingReader)
  | 0, c => some (.ok [], c)
  | bound + 1, c =>
    if c.atEnd then some (.ok [], c)
    else
      match c.readStatement with
      | some (.ok node, c) =>
        (readAllUpTo bound c).map fun (nodes, c) => (nodes.map (node :: ·), c)
      | some (.error e, c) => some (.error e, c)
      | none => none

/-- Reads all statements that are left, up to the first failure.  There are no more statements than
tokens. -/
def readAll (c : CountingReader) : Option (Except ParseError (List Node) × CountingReader) :=
  c.readAllUpTo c.tape.unread.length

/-- Reads one statement.  A failure is recorded, and the rest of the line is given up. -/
def handle (c : CountingReader) : Option (Option Node × CountingReader) :=
  c.readStatement.map fun
    | (.ok node, c) => (some node, c)
    | (.error e, c) => (none, ⟨⟨c.tape.discardRest, c.failures ++ [e]⟩, c.level⟩)

/-- The answer to a query, and the reader afterwards. -/
def answer (c : CountingReader) : LineReader.Query → Option (LineReader.Reply × CountingReader)
  | .statement => c.readStatement.map fun (result, c) => (.statement result, c)
  | .all => c.readAll.map fun (result, c) => (.all result, c)
  | .handle => c.handle.map fun (result, c) => (.handled result, c)

/-- The turns of a conversation, and the reader behind it. -/
def converse : CountingReader → List LineReader.Query →
    Option (List LineReader.Turn × CountingReader)
  | c, [] => some ([], c)
  | c, query :: queries => do
    let (reply, after) ← c.answer query
    let (turns, last) ← after.converse queries
    return (⟨query, reply, c.toLineReader, after.toLineReader⟩ :: turns, last)

variable {r : LineReader}

theorem readStatement_eq (r : LineReader) (level : Nat) :
    readStatement ⟨r, level⟩ = some (r.readStatement.1, ⟨r.readStatement.2, 0⟩) := by
  unfold readStatement LineReader.readStatement
  rw [Counted.statement_eq (Nat.le_refl _)]
  cases Grammar.statement r.tape.unread <;> rfl

theorem readAllUpTo_eq {bound : Nat} {r : LineReader} (h : r.tape.unread.length ≤ bound) :
    readAllUpTo bound ⟨r, 0⟩ = some (r.readAll.1, ⟨r.readAll.2, 0⟩) := by
  induction bound generalizing r with
  | zero =>
    have hend : r.atEnd = true := List.isEmpty_iff_length_eq_zero.2 (Nat.le_zero.1 h)
    rw [LineReader.readAll_eq, if_pos hend]
    rfl
  | succ bound ih =>
    rw [LineReader.readAll_eq, readAllUpTo]
    by_cases hend : r.atEnd = true
    · rw [if_pos hend, if_pos hend]
    rw [if_neg hend, if_neg hend, readStatement_eq]
    cases hrun : Grammar.statement r.tape.unread with
    | error e rest =>
      rw [LineReader.readStatement_of_error hrun]
    | ok node rest =>
      have hlength := Grammar.statement_progressive hrun
      have hrest := LineReader.unread_seek_of_ok hrun
      have hall := ih (r := r.seek rest) (by rw [hrest]; omega)
      rw [LineReader.readStatement_of_ok hrun]
      dsimp only
      rw [hall]
      rfl

theorem answer_eq (r : LineReader) (query : LineReader.Query) :
    answer ⟨r, 0⟩ query = some ((r.answer query).1, ⟨(r.answer query).2, 0⟩) := by
  cases query with
  | statement =>
    unfold answer LineReader.answer
    rw [readStatement_eq]
    rfl
  | all =>
    unfold answer LineReader.answer readAll
    rw [readAllUpTo_eq (Nat.le_refl _)]
    rfl
  | handle =>
    unfold answer LineReader.answer handle
    rw [readStatement_eq]
    unfold LineReader.handle
    rcases r.readStatement with ⟨e | node, after⟩ <;> rfl

/-- A reader that counts answers as if it did not, and its counter is at zero afterwards. -/
theorem converse_eq (r : LineReader) (queries : List LineReader.Query) :
    converse ⟨r, 0⟩ queries = some (r.turns queries, ⟨r.afterAll queries, 0⟩) := by
  induction queries generalizing r with
  | nil => rfl
  | cons query queries ih =>
    unfold converse
    rw [answer_eq]
    simp [ih, LineReader.turns, LineReader.afterAll]

end CountingReader

/-! ### Conversations -/

namespace LineReader

/-- What can be said of a conversation about a line: its turns, and the reader behind it. -/
structure Faithful (tape : TokenTape) (turns : List Turn) (last : LineReader) : Prop where
  /-- A new reader at the same place of the line answers the same and ends at the same place. -/
  forgetful : ∀ turn ∈ turns,
    ((ofTape turn.before.tape).answer turn.query).1 = turn.reply ∧
      ((ofTape turn.before.tape).answer turn.query).2.tape = turn.after.tape
  /-- The position neither goes back nor leaves the line. -/
  onward : ∀ turn ∈ turns,
    turn.after.tape.line = tape.line ∧ turn.before.tape.position ≤ turn.after.tape.position ∧
      turn.after.tape.position ≤ tape.line.length
  /-- The failures on record are those of the statements that were handled and could not be read, in
  this order, each being that with which the statement could not be read there. -/
  recorded : List.Forall₂ (fun turn e => turn.before.readStatement.1 = .error e)
    (turns.filter Turn.gaveUp) last.failures
  /-- The last failure is that of the last such statement. -/
  lastRecorded : Option.Rel (fun turn e => turn.before.readStatement.1 = .error e)
    (turns.filter Turn.gaveUp).getLast? last.lastFailure
  /-- When a statement could not be handled, the end of the line is reached. -/
  finished : ∀ turn ∈ turns, turn.gaveUp = true → turn.after.atEnd = true
  /-- From then on no statement can be handled, and each adds one failure at the end of the line. -/
  finishedForGood : turns.Pairwise fun earlier later =>
    earlier.gaveUp = true → later.query = .handle →
      later.gaveUp = true ∧ ∃ e : ParseError, e.location = tape.line.stop ∧
        later.after.failures = later.before.failures ++ [e]

/-- **What was asked before is forgotten, but for the record.**  Whatever a reader is asked about a
line, and in whatever order, a reader that counts its levels, and whose procedures have room for a
limited number of calls within calls, gives the same answers as one that does not count.  Each
answer is that of a new reader at the same place.  The position goes on along the line.  And the
record has one failure for each statement that was handled and could not be read, the first of which
puts an end to the line. -/
theorem faithful (tape : TokenTape) (queries : List Query) :
    CountingReader.converse ⟨ofTape tape, 0⟩ queries =
        some ((ofTape tape).turns queries, ⟨(ofTape tape).afterAll queries, 0⟩) ∧
      Faithful tape ((ofTape tape).turns queries) ((ofTape tape).afterAll queries) := by
  refine ⟨CountingReader.converse_eq _ _, ?_⟩
  obtain ⟨more, hmore, hrecord⟩ := (ofTape tape).forall₂_failures queries
  obtain rfl : ((ofTape tape).afterAll queries).failures = more := hmore
  refine ⟨?_, ?_, hrecord, ?_, ?_, ?_⟩
  · intro turn hturn
    obtain ⟨-, hanswer⟩ := of_mem_turns hturn
    have htape : (ofTape turn.before.tape).tape = turn.before.tape := rfl
    have h := answer_congr htape turn.query
    rwa [hanswer] at h
  · intro turn hturn
    obtain ⟨hon, hanswer⟩ := of_mem_turns hturn
    have hleads := turn.before.leadsTo_answer turn.query
    rw [hanswer] at hleads
    have hline := (hon.trans hleads).line_eq
    refine ⟨hline, hleads.position_le, ?_⟩
    have hposition := turn.after.tape.position_le
    rwa [hline] at hposition
  · exact rel_getLast?_of_forall₂ hrecord
  · intro turn hturn
    exact Turn.atEnd_of_gaveUp (of_mem_turns hturn).2
  · refine ((ofTape tape).pairwise_turns queries).imp ?_
    intro earlier later h hgaveUp hhandle
    obtain ⟨hreply, hfailures⟩ := h hgaveUp hhandle
    refine ⟨?_, _, rfl, hfailures⟩
    unfold Turn.gaveUp
    rw [hreply]

example : ((ofString? "1 +; 2").toOption.map fun r =>
    (r.afterAll [.statement, .handle, .all, .handle]).failures.map fun e =>
      (e.message, e.location)) =
      some [("Unexpected operator ';' when expecting an expression", ⟨1, 4⟩),
        ("Expected expression, found end of input", ⟨1, 7⟩)] := by decide +kernel

end LineReader

end Reckoner
