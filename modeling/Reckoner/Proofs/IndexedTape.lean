import Reckoner.Proofs.Conversation

/-!
# Tapes as lists with an index

A tape can be kept as a list of entries and the index of the next one, with nothing said about
either.  What is done with such a pair may fail: the index may lie outside the list, and it is moved
on, or put on the last entry, by sums and differences of numbers that are bounded.

Nothing fails with a tape that is made of a text or of a list of entries, whatever it is asked and
in whatever order, because the list always has exactly one end, which is its last entry, and the
index never leaves the list.  So it answers what a `TokenTape` answers, in which the list and the
index cannot be otherwise.

## Main definitions

* `EndsOnce` — that a list of entries has one end, and has it last.
* `Source.collect` — the entries of a text, taken one by one until there is an end among them.
* `TokenTape.Query`, `TokenTape.Reply`, `TokenTape.answer`, `TokenTape.converse` — what a tape can
  be asked, what it answers, and a whole conversation with it.
* `IndexedTape` — a list of entries with an index, and its conversations as long as nothing fails.
* `TokenTape.HandsOut` — that a tape gives the entries of a list in order, and its end for ever.
* `TokenTape.Origin` — what a tape can be made of.

## Main results

* `Source.collect_eq` — the entries that are taken one by one are the tokens and the end.
* `IndexedTape.converse?_indexed` — no conversation with an index into the line of a tape fails.
* `TokenTape.handsOut_line` — a tape gives its line in order.
* `TokenTape.Origin.tape_handsOut` — **a tape is never read beyond its one end.**
-/

namespace Reckoner

/-! ### Lists with one end -/

/-- `EndsOnce entries`: the last of the entries is an end, and no other is. -/
structure EndsOnce (entries : List Entry) : Prop where
  /-- There is an entry. -/
  length_pos : 0 < entries.length
  /-- An end stands behind all others, and nowhere else. -/
  isEnd_iff : ∀ i, (∃ stop, entries[i]? = some (.endOfInput stop)) ↔ i + 1 = entries.length

namespace TokenStream

theorem endsOnce_entries (s : TokenStream) : EndsOnce s.entries := by
  obtain ⟨tokens, stop⟩ := s
  refine ⟨by simp, fun i => ?_⟩
  induction tokens generalizing i with
  | nil => cases i <;> simp [entries]
  | cons t ts ih =>
    cases i with
    | zero => simp [entries]
    | succ i => simpa [entries] using ih i

/-- The tokens that a list of entries makes are those in front of its first end. -/
theorem dropLast_entries_ofEntries (es : List Entry) (l : Location) :
    (ofEntries es l).entries.dropLast = es.takeWhile (!·.isEnd) := by
  rw [entries, List.dropLast_concat]
  induction es generalizing l with
  | nil => rfl
  | cons entry es ih =>
    cases entry with
    | endOfInput stop => rfl
    | token t => exact congrArg (Entry.token t :: ·) (ih t.location)

/-- The entries that a list of entries makes: it is cut off behind its first end, or gets one. -/
theorem entries_ofEntries (es : List Entry) (l : Location) :
    (ofEntries es l).entries =
      match es.findIdx? Entry.isEnd with
      | some i => es.take (i + 1)
      | none => es ++ [.endOfInput ((es.getLast?.map Entry.location).getD l)] := by
  induction es generalizing l with
  | nil => rfl
  | cons entry es ih =>
    cases entry with
    | endOfInput stop => rfl
    | token t =>
      have hcons : (ofEntries (.token t :: es) l).entries =
          .token t :: (ofEntries es t.location).entries := rfl
      have hlast : ((Entry.token t :: es).getLast?.map Entry.location).getD l =
          (es.getLast?.map Entry.location).getD t.location := by
        rw [List.getLast?_cons]
        cases es.getLast? <;> rfl
      rw [hcons, ih, hlast, List.findIdx?_cons]
      cases es.findIdx? Entry.isEnd <;> rfl

example (t : Token) (l m : Location) :
    (ofEntries [.token t, .endOfInput l, .token t, .endOfInput m] m).entries =
      [.token t, .endOfInput l] := rfl

end TokenStream

/-! ### Taking entries from a text -/

namespace Source

/-- The entries of a text, taken one by one until one of them is the end, behind those that have
been `taken` before; or the first malformed literal. -/
def collect (s : Source) (taken : List Entry) : Except MalformedNumber (List Entry) :=
  match _ : s.next with
  | (.error e, _) => .error e
  | (.ok entry, after) =>
    if entry.isEnd then .ok (taken ++ [entry]) else after.collect (taken ++ [entry])
termination_by s.rest.length
decreasing_by
  next h hentry =>
    have hlt := length_next_lt (s := s) (by rintro l hl; simp_all [Entry.isEnd])
    rwa [h] at hlt

/-- The entries that are taken one by one are the tokens and the end. -/
theorem collect_eq (s : Source) (taken : List Entry) :
    s.collect taken = s.tokenize.map fun stream => taken ++ stream.entries := by
  induction s, taken using collect.induct with
  | case1 s taken e after h =>
    unfold collect
    rw [tokenize_eq, h]
    rfl
  | case2 s taken entry after h hend =>
    unfold collect
    rw [tokenize_eq, h]
    cases entry with
    | token t => cases hend
    | endOfInput stop => rfl
  | case3 s taken entry after h hend ih =>
    unfold collect
    rw [tokenize_eq, h]
    cases entry with
    | endOfInput stop => exact absurd rfl hend
    | token t =>
      show after.collect (taken ++ [.token t]) = (after.tokenize.map (TokenStream.cons t)).map _
      rw [ih]
      cases after.tokenize with
      | error e => rfl
      | ok stream => exact congrArg Except.ok (List.append_assoc taken [.token t] stream.entries)

end Source

/-! ### Questions and answers -/

namespace TokenTape

/-- What a tape can be asked. -/
inductive Query where
  /-- The entry at the position. -/
  | current
  /-- The entry at the position, and to move on behind it. -/
  | read
  /-- The entry a number of places behind the position. -/
  | peek (k : Nat)
  /-- To move to the end. -/
  | discardRest
  /-- Whether the end has been reached. -/
  | atEnd
  /-- The number of entries. -/
  | size
  /-- The position. -/
  | position
  deriving DecidableEq, Repr

/-- What a tape answers. -/
inductive Reply where
  /-- An entry. -/
  | entry (e : Entry)
  /-- An entry, if there is one. -/
  | found (e : Option Entry)
  /-- Whether something is so. -/
  | truth (b : Bool)
  /-- A number. -/
  | number (n : Nat)
  /-- That something has been done. -/
  | done

/-- The answer to a query, and the tape afterwards. -/
def answer (tape : TokenTape) : Query → Reply × TokenTape
  | .current => (.entry tape.current, tape)
  | .read => (.entry tape.read.1, tape.read.2)
  | .peek k => (.found (tape.peek k), tape)
  | .discardRest => (.done, tape.discardRest)
  | .atEnd => (.truth tape.atEnd, tape)
  | .size => (.number tape.size, tape)
  | .position => (.number tape.position, tape)

/-- The answers of a conversation, and the tape behind it. -/
def converse : TokenTape → List Query → List Reply × TokenTape
  | tape, [] => ([], tape)
  | tape, query :: queries =>
    let (reply, after) := tape.answer query
    let (replies, last) := after.converse queries
    (reply :: replies, last)

theorem line_answer (tape : TokenTape) (query : Query) :
    (tape.answer query).2.line = tape.line := by
  cases query <;> rfl

/-- A conversation does not change the line. -/
theorem line_converse (tape : TokenTape) (queries : List Query) :
    (tape.converse queries).2.line = tape.line := by
  induction queries generalizing tape with
  | nil => rfl
  | cons query queries ih => exact (ih _).trans (tape.line_answer query)

end TokenTape

/-! ### Lists with an index -/

/-- A list of entries and an index, which need not lie in the list. -/
structure IndexedTape where
  /-- The list. -/
  entries : List Entry
  /-- The index of the next entry. -/
  index : Nat

namespace IndexedTape

/-- The sum of two numbers, unless it is above the `limit` of all numbers. -/
def sum? (limit a b : Nat) : Option Nat := if a + b ≤ limit then some (a + b) else none

/-- The difference of two numbers, unless it is below zero. -/
def difference? (a b : Nat) : Option Nat := if b ≤ a then some (a - b) else none

/-- The pair that a text makes, unless a literal of the text is malformed. -/
def ofString? (text : String) : Except MalformedNumber IndexedTape :=
  ((Source.ofString text).collect []).map (⟨·, 0⟩)

/-- The pair that a list of entries makes: it is cut off behind its first end; if it has none, one
is put where its last entry is, or at the start if it has no entry. -/
def ofEntries (es : List Entry) : IndexedTape :=
  match es.findIdx? Entry.isEnd with
  | some i => ⟨es.take (i + 1), 0⟩
  | none => ⟨es ++ [.endOfInput ((es.getLast?.map Entry.location).getD .start)], 0⟩

/-- The entry at the index. -/
def current? (tape : IndexedTape) : Option Entry := tape.entries[tape.index]?

/-- Whether the entry at the index is an end. -/
def atEnd? (tape : IndexedTape) : Option Bool := tape.current?.map Entry.isEnd

/-- Moves the index on by one, unless the entry there is an end. -/
def moveOn? (limit : Nat) (tape : IndexedTape) : Option IndexedTape := do
  let atEnd ← tape.atEnd?
  if atEnd then some tape else (sum? limit tape.index 1).map (⟨tape.entries, ·⟩)

/-- The entry at the index, and the index moved on behind it. -/
def read? (limit : Nat) (tape : IndexedTape) : Option (Entry × IndexedTape) := do
  let after ← tape.moveOn? limit
  let entry ← tape.current?
  return (entry, after)

/-- The entry `k` places behind the index, if that is a number and in the list. -/
def peek (limit : Nat) (tape : IndexedTape) (k : Nat) : Option Entry :=
  (sum? limit tape.index k).bind fun i => tape.entries[i]?

/-- Moves the index to the last entry. -/
def discardRest? (tape : IndexedTape) : Option IndexedTape :=
  (difference? tape.entries.length 1).map (⟨tape.entries, ·⟩)

/-- The answer to a query and the pair afterwards, unless something fails. -/
def answer? (limit : Nat) (tape : IndexedTape) :
    TokenTape.Query → Option (TokenTape.Reply × IndexedTape)
  | .current => tape.current?.map fun entry => (.entry entry, tape)
  | .read => (tape.read? limit).map fun (entry, after) => (.entry entry, after)
  | .peek k => some (.found (tape.peek limit k), tape)
  | .discardRest => tape.discardRest?.map fun after => (.done, after)
  | .atEnd => tape.atEnd?.map fun b => (.truth b, tape)
  | .size => some (.number tape.entries.length, tape)
  | .position => some (.number tape.index, tape)

/-- The answers of a conversation and the pair behind it, unless something fails. -/
def converse? (limit : Nat) :
    IndexedTape → List TokenTape.Query → Option (List TokenTape.Reply × IndexedTape)
  | tape, [] => some ([], tape)
  | tape, query :: queries => do
    let (reply, after) ← tape.answer? limit query
    let (replies, last) ← after.converse? limit queries
    return (reply :: replies, last)

end IndexedTape

/-- The entries of a tape with its position. -/
def TokenTape.indexed (tape : TokenTape) : IndexedTape := ⟨tape.line.entries, tape.position⟩

namespace IndexedTape

variable {limit : Nat} (tape : TokenTape)

/-! ### An index into a line -/

theorem ofString?_eq (text : String) :
    ofString? text = (TokenTape.ofString? text).map TokenTape.indexed := by
  unfold ofString? TokenTape.ofString?
  rw [Source.collect_eq]
  cases (Source.ofString text).tokenize <;> rfl

theorem ofEntries_eq (es : List Entry) : ofEntries es = (TokenTape.ofEntries es).indexed := by
  unfold ofEntries TokenTape.indexed TokenTape.ofEntries TokenTape.ofStream
  rw [TokenStream.entries_ofEntries]
  cases es.findIdx? Entry.isEnd <;> rfl

theorem current?_indexed : tape.indexed.current? = some tape.current := tape.peek_zero

theorem atEnd?_indexed : tape.indexed.atEnd? = some tape.atEnd := by
  rw [atEnd?, current?_indexed]
  exact congrArg some (TokenStream.isEnd_head _)

/-- Moving on is what reading does to a tape. -/
theorem moveOn?_indexed (h : tape.size ≤ limit) :
    tape.indexed.moveOn? limit = some tape.read.2.indexed := by
  have hle := tape.position_le
  have hafter : tape.read.2.indexed =
      ⟨tape.line.entries, min (tape.position + 1) tape.line.length⟩ :=
    congrArg (IndexedTape.mk tape.line.entries) tape.position_read
  unfold TokenTape.size at h
  rw [moveOn?, atEnd?_indexed, hafter, Option.bind_eq_bind, Option.bind_some]
  by_cases hend : tape.atEnd = true
  · rw [if_pos hend]
    rw [TokenTape.atEnd_iff] at hend
    rw [Nat.min_eq_right (by omega), ← hend]
    rfl
  · rw [if_neg hend]
    rw [TokenTape.atEnd_iff] at hend
    rw [Nat.min_eq_left (by omega), sum?, if_pos (by show tape.position + 1 ≤ limit; omega)]
    rfl

theorem read?_indexed (h : tape.size ≤ limit) :
    tape.indexed.read? limit = some (tape.read.1, tape.read.2.indexed) := by
  rw [read?, moveOn?_indexed tape h, current?_indexed]
  rfl

/-- Looking ahead finds what there is, and nothing where a sum is too great. -/
theorem peek_indexed (h : tape.size ≤ limit) (k : Nat) :
    tape.indexed.peek limit k = tape.peek k := by
  unfold peek sum? TokenTape.peek
  split
  · rfl
  · next hlarge =>
    refine (List.getElem?_eq_none ?_).symm
    rw [TokenStream.length_entries]
    unfold TokenTape.size at h
    unfold TokenTape.indexed at hlarge
    dsimp at hlarge
    omega

theorem discardRest?_indexed : tape.indexed.discardRest? = some tape.discardRest.indexed := by
  unfold discardRest? difference? TokenTape.indexed
  simp [TokenTape.discardRest]

/-- No answer fails. -/
theorem answer?_indexed (h : tape.size ≤ limit) (query : TokenTape.Query) :
    tape.indexed.answer? limit query = some ((tape.answer query).map id TokenTape.indexed) := by
  cases query with
  | current => rw [answer?, current?_indexed]; rfl
  | read => rw [answer?, read?_indexed tape h]; rfl
  | peek k => rw [answer?, peek_indexed tape h]; rfl
  | discardRest => rw [answer?, discardRest?_indexed]; rfl
  | atEnd => rw [answer?, atEnd?_indexed]; rfl
  | size =>
    exact congrArg (fun n => some (TokenTape.Reply.number n, tape.indexed)) tape.line.length_entries
  | position => rfl

/-- No conversation fails. -/
theorem converse?_indexed (h : tape.size ≤ limit) (queries : List TokenTape.Query) :
    tape.indexed.converse? limit queries =
      some ((tape.converse queries).map id TokenTape.indexed) := by
  induction queries generalizing tape with
  | nil => rfl
  | cons query queries ih =>
    have hafter : (tape.answer query).2.size ≤ limit := by
      unfold TokenTape.size at h ⊢
      rwa [tape.line_answer]
    rw [converse?, answer?_indexed tape h]
    show ((tape.answer query).2.indexed.converse? limit queries).bind _ = _
    rw [ih _ hafter]
    rfl

end IndexedTape

namespace TokenTape

/-! ### What a tape gives -/

/-- `tape.HandsOut entries`: the tape gives the entries of the list in order, one for each reading
until only the last one is left, and then the last one for ever. -/
structure HandsOut (tape : TokenTape) (entries : List Entry) : Prop where
  /-- The line is the list. -/
  line_eq : tape.line.entries = entries
  /-- The size is the length of the list. -/
  size_eq : tape.size = entries.length
  /-- The position is in the list. -/
  position_le : tape.position ≤ entries.length - 1
  /-- The current entry is the one at the position. -/
  current_eq : entries[tape.position]? = some tape.current
  /-- The end has been reached when the position is the last. -/
  atEnd_iff : tape.atEnd = true ↔ tape.position = entries.length - 1
  /-- What `n` readings in a row give. -/
  read_eq : ∀ n, (tape.converse (List.replicate n .read)).1.map some =
    (List.range n).map fun k =>
      entries[min (tape.position + k) (entries.length - 1)]?.map Reply.entry
  /-- Where `n` readings in a row lead. -/
  position_read_eq : ∀ n, (tape.converse (List.replicate n .read)).2.position =
    min (tape.position + n) (entries.length - 1)
  /-- An entry in the list can be seen ahead. -/
  peek_eq : ∀ k (h : tape.position + k < entries.length),
    tape.peek k = some (entries.get ⟨tape.position + k, h⟩)
  /-- No other entry can. -/
  peek_eq_none : ∀ k, tape.peek k = none ↔ entries.length - tape.position ≤ k
  /-- What can be seen `k` places ahead is what the reading behind `k` others gives. -/
  read_of_peek : ∀ k entry, tape.peek k = some entry →
    (tape.converse (List.replicate (k + 1) .read)).1[k]? = some (.entry entry)
  /-- Discarding the rest leads to the last entry, which is an end. -/
  discardRest_eq : tape.discardRest.position = entries.length - 1 ∧
    ∃ stop, tape.discardRest.current = .endOfInput stop

variable (tape : TokenTape)

/-- What `n` readings in a row give. -/
theorem replies_replicate_read (n : Nat) :
    (tape.converse (List.replicate n .read)).1.map some =
      (List.range n).map fun k =>
        tape.line.entries[min (tape.position + k) tape.line.length]?.map Reply.entry := by
  induction n generalizing tape with
  | zero => rfl
  | succ n ih =>
    have hle := tape.position_le
    have hplace (k : Nat) : min (tape.read.2.position + k) tape.line.length =
        min (tape.position + (k + 1)) tape.line.length := by
      rw [tape.position_read]
      omega
    have hfirst :
        tape.line.entries[min (tape.position + 0) tape.line.length]? = some tape.read.1 := by
      rw [Nat.min_eq_left (by omega)]
      exact tape.peek_zero
    rw [List.range_succ_eq_map, List.map_cons, hfirst, List.map_map]
    refine congrArg (some (Reply.entry tape.read.1) :: ·) ((ih tape.read.2).trans ?_)
    refine List.map_congr_left fun k _ => ?_
    rw [tape.line_read, hplace]
    rfl

/-- Where `n` readings in a row lead. -/
theorem position_replicate_read (n : Nat) :
    (tape.converse (List.replicate n .read)).2.position =
      min (tape.position + n) tape.line.length := by
  induction n generalizing tape with
  | zero => exact (Nat.min_eq_left tape.position_le).symm
  | succ n ih =>
    refine (ih tape.read.2).trans ?_
    rw [tape.position_read, tape.line_read]
    omega

/-- What can be seen `k` places ahead is what the reading behind `k` others gives. -/
theorem reply_of_peek {k : Nat} {entry : Entry} (h : tape.peek k = some entry) :
    (tape.converse (List.replicate (k + 1) .read)).1[k]? = some (.entry entry) := by
  have hlt : tape.position + k < tape.line.entries.length := (List.getElem?_eq_some_iff.1 h).1
  have hplace : min (tape.position + k) tape.line.length = tape.position + k := by
    rw [TokenStream.length_entries] at hlt
    omega
  have hreply := congrArg (·[k]?) (tape.replies_replicate_read (k + 1))
  simp only [List.getElem?_map, List.getElem?_range (Nat.lt_succ_self k), Option.map_some, hplace]
    at hreply
  unfold peek at h
  rw [h] at hreply
  simpa using hreply

/-- Behind the rest that is discarded, there is only the end. -/
theorem current_discardRest : tape.discardRest.current = .endOfInput tape.line.stop := by
  unfold current unread discardRest TokenStream.length
  rw [List.drop_length, TokenStream.head_mk_nil]

/-- A tape gives the entries of its line in order. -/
theorem handsOut_line : tape.HandsOut tape.line.entries where
  line_eq := rfl
  size_eq := tape.line.length_entries.symm
  position_le := by
    rw [tape.line.length_entries]
    exact tape.position_le
  current_eq := tape.peek_zero
  atEnd_iff := by
    rw [tape.line.length_entries]
    exact tape.atEnd_iff
  read_eq n := by
    rw [tape.line.length_entries]
    exact tape.replies_replicate_read n
  position_read_eq n := by
    rw [tape.line.length_entries]
    exact tape.position_replicate_read n
  peek_eq k h := List.getElem?_eq_getElem h
  peek_eq_none k := by
    unfold peek
    rw [List.getElem?_eq_none_iff]
    omega
  read_of_peek k entry h := tape.reply_of_peek h
  discardRest_eq := by
    rw [tape.line.length_entries]
    exact ⟨rfl, tape.line.stop, tape.current_discardRest⟩

/-! ### Origins of tapes -/

/-- What a tape can be made of. -/
inductive Origin where
  /-- A text. -/
  | text (s : String)
  /-- A list of entries. -/
  | entries (es : List Entry)

namespace Origin

/-- The tape that is made, unless a literal of the text is malformed. -/
def tape? : Origin → Except MalformedNumber TokenTape
  | text s => ofString? s
  | entries es => .ok (ofEntries es)

/-- The list with an index that is made. -/
def indexed? : Origin → Except MalformedNumber IndexedTape
  | text s => IndexedTape.ofString? s
  | entries es => .ok (IndexedTape.ofEntries es)

/-- The list with an index is the line of the tape with its position. -/
theorem indexed?_eq (origin : Origin) : origin.indexed? = origin.tape?.map indexed := by
  cases origin with
  | text s => exact IndexedTape.ofString?_eq s
  | entries es => exact congrArg Except.ok (IndexedTape.ofEntries_eq es)

/-- Nothing of a new tape has been read. -/
theorem position_of_tape? {origin : Origin} {tape : TokenTape} (h : origin.tape? = .ok tape) :
    tape.position = 0 := by
  cases origin with
  | entries es =>
    cases h
    rfl
  | text s =>
    change (Source.ofString s).tokenize.map ofStream = .ok tape at h
    cases hstream : (Source.ofString s).tokenize with
    | error e =>
      rw [hstream] at h
      cases h
    | ok stream =>
      rw [hstream] at h
      cases h
      rfl

/-- **A tape is never read beyond its one end.**  What a text or a list of entries makes is a list
whose last entry is an end, and no other is, with the index of its first entry; of a list of
entries, those in front of its first end are kept and no others.  Whatever it is asked afterwards,
and in whatever order, the list stays as it is, the index stays in the list, the entries are given
in order, and no lookup, sum or difference fails, where numbers go up to the size of the list. -/
theorem tape_handsOut (origin : Origin) :
    origin.indexed? = origin.tape?.map indexed ∧
    ∀ tape, origin.tape? = .ok tape →
      EndsOnce tape.line.entries ∧
      tape.position = 0 ∧
      (∀ es, origin = .entries es →
        tape.line.entries.dropLast = es.takeWhile (!·.isEnd)) ∧
      ∀ queries, (tape.converse queries).2.HandsOut tape.line.entries ∧
        ∀ limit, tape.size ≤ limit →
          tape.indexed.converse? limit queries =
            some ((tape.converse queries).map id indexed) := by
  refine ⟨origin.indexed?_eq, fun tape htape => ⟨tape.line.endsOnce_entries,
    position_of_tape? htape, ?_, fun queries => ⟨?_, fun limit hlimit =>
      IndexedTape.converse?_indexed tape hlimit queries⟩⟩⟩
  · rintro es rfl
    cases htape
    exact TokenStream.dropLast_entries_ofEntries es .start
  · rw [← tape.line_converse queries]
    exact handsOut_line _

end Origin

end TokenTape

end Reckoner
