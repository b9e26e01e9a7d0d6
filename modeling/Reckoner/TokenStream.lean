import Reckoner.Token

/-!
# Token streams

What is left to read of a line: the tokens ahead and, behind them, the end of the input.  The
end is never used up, so there is always something to look at.

## Main definitions

* `TokenStream` — the tokens ahead and the location of the end.
* `TokenStream.head`, `TokenStream.tail` — what comes next, and what comes after it.
* `TokenStream.entries` — the whole stream as a list, the end last.
* `TokenStream.IsRestOf` — what is left of a stream when tokens have been taken off it.

## Main results

* `TokenStream.cons_induction` — facts about streams go by induction on the tokens ahead.
* `TokenStream.IsRestOf.eq_drop` — a rest is known by its length.
-/

namespace Reckoner

/-- Tokens, and behind them the end of the input. -/
structure TokenStream where
  /-- The tokens ahead. -/
  tokens : List Token
  /-- The location of the end of the input. -/
  stop : Location
  deriving Repr, Inhabited

namespace TokenStream

/-- What comes next. -/
def head (s : TokenStream) : Entry :=
  match s.tokens with
  | [] => .endOfInput s.stop
  | t :: _ => .token t

/-- What comes after the next token; behind the end there is only the end. -/
def tail (s : TokenStream) : TokenStream := ⟨s.tokens.tail, s.stop⟩

/-- Whether only the end is left. -/
def atEnd (s : TokenStream) : Bool := s.tokens.isEmpty

/-- The stream with one more token in front. -/
def cons (t : Token) (s : TokenStream) : TokenStream := ⟨t :: s.tokens, s.stop⟩

/-- The whole stream as a list, the end last. -/
def entries (s : TokenStream) : List Entry := s.tokens.map .token ++ [.endOfInput s.stop]

/-- The number of tokens ahead. -/
def length (s : TokenStream) : Nat := s.tokens.length

/-- Streams are the same if they have the same tokens ahead and the same end. -/
@[ext] theorem ext {s t : TokenStream} (htokens : s.tokens = t.tokens) (hstop : s.stop = t.stop) :
    s = t := by
  cases s
  cases t
  exact congr (congrArg mk htokens) hstop

/-- Facts about streams go by induction on the tokens ahead. -/
@[elab_as_elim] theorem cons_induction {motive : TokenStream → Prop}
    (nil : ∀ stop, motive ⟨[], stop⟩) (cons : ∀ t s, motive s → motive (s.cons t))
    (s : TokenStream) : motive s := by
  obtain ⟨tokens, stop⟩ := s
  induction tokens with
  | nil => exact nil stop
  | cons t ts ih => exact cons t ⟨ts, stop⟩ ih

@[simp] theorem head_mk_nil (l : Location) : (mk [] l).head = .endOfInput l := rfl

@[simp] theorem head_mk_cons (t : Token) (ts : List Token) (l : Location) :
    (mk (t :: ts) l).head = .token t := rfl

@[simp] theorem tail_mk_nil (l : Location) : (mk [] l).tail = mk [] l := rfl

@[simp] theorem tail_mk_cons (t : Token) (ts : List Token) (l : Location) :
    (mk (t :: ts) l).tail = mk ts l := rfl

@[simp] theorem head_cons (t : Token) (s : TokenStream) : (s.cons t).head = .token t := rfl

@[simp] theorem tail_cons (t : Token) (s : TokenStream) : (s.cons t).tail = s := rfl

@[simp] theorem stop_tail (s : TokenStream) : s.tail.stop = s.stop := rfl

@[simp] theorem length_tail (s : TokenStream) : s.tail.length = s.length - 1 :=
  List.length_tail

@[simp] theorem length_entries (s : TokenStream) : s.entries.length = s.length + 1 := by
  simp [entries, length]

/-- The head is the first of the entries, the end among them. -/
theorem getElem?_entries_zero (s : TokenStream) : s.entries[0]? = some s.head := by
  obtain ⟨_ | ⟨t, ts⟩, l⟩ := s <;> rfl

/-- The head of a stream is its end exactly if no token is ahead. -/
theorem isEnd_head (s : TokenStream) : s.head.isEnd = s.atEnd := by
  obtain ⟨_ | ⟨t, ts⟩, l⟩ := s <;> rfl

/-! ### Rests of a stream -/

/-- `s.IsRestOf t`: the stream `s` is what is left of `t` when tokens have been taken off it. -/
def IsRestOf (s t : TokenStream) : Prop := s.stop = t.stop ∧ s.tokens <:+ t.tokens

namespace IsRestOf

theorem refl (s : TokenStream) : s.IsRestOf s := ⟨rfl, List.suffix_refl _⟩

theorem trans {s t u : TokenStream} (hst : s.IsRestOf t) (htu : t.IsRestOf u) :
    s.IsRestOf u := ⟨hst.1.trans htu.1, hst.2.trans htu.2⟩

theorem tail (s : TokenStream) : s.tail.IsRestOf s := ⟨rfl, List.tail_suffix _⟩

theorem length_le {s t : TokenStream} (h : s.IsRestOf t) : s.length ≤ t.length :=
  h.2.length_le

/-- A rest is known by its length. -/
theorem eq_drop {s t : TokenStream} (h : s.IsRestOf t) :
    s = ⟨t.tokens.drop (t.length - s.length), t.stop⟩ := by
  obtain ⟨hstop, hsuffix⟩ := h
  obtain ⟨tokens, stop⟩ := s
  obtain rfl : stop = t.stop := hstop
  exact congrArg (TokenStream.mk · t.stop) (List.suffix_iff_eq_drop.1 hsuffix)

end IsRestOf

end TokenStream

end Reckoner
