import Reckoner.Proofs.RowReading

/-!
# Reading on behind a line break

A line feed ends every word and every comment, and it is no word itself.  So a text with a line feed
in it is read as the two texts next to it are, one after the other: the tokens in front of the line
feed do not depend on what is behind it, and those behind it do not depend on what is in front of
it, but for the line they are on.  The same is true of a literal for which a text cannot be read.

## Main definitions

* `Location.down` — a location some lines further down.
* `Token.moved`, `Entry.moved`, `TokenStream.moved` — what has been read, at other places.

## Main results

* `Source.tokenize_induction` — what has tokens is read token by token.
* `Source.tokenize_lineBreak` — a text is read line by line.
* `Source.tokenize_down` — a text is read in the same way further down.
* `Source.line_le_of_tokenize` — no token is on a line behind the last one.
* `Source.tokenize_twoLines` — **of two lines, each is read by itself.**
-/

namespace Reckoner

/-! ### Words and separators at a line break -/

/-- A run of characters stops in front of one that does not belong to it. -/
theorem span_stop {p : Char → Bool} {c : Char} (hc : p c = false) (cs ds : List Char) :
    (cs ++ c :: ds).takeWhile p = cs.takeWhile p ∧
      (cs ++ c :: ds).dropWhile p = cs.dropWhile p ++ c :: ds := by
  induction cs with
  | nil => simp [hc]
  | cons d cs ih =>
    rw [List.cons_append]
    cases hd : p d with
    | true => simp [hd, ih.1, ih.2]
    | false => simp [hd]

/-- No word goes on with a line feed. -/
theorem Lexeme.munch_lineBreak (first : Char) (cs ds : List Char) :
    munch first (cs ++ '\n' :: ds) =
      ((munch first cs).1, (munch first cs).2 ++ '\n' :: ds) := by
  have hword : continuesWord '\n' = false := rfl
  have hnumeral : continuesNumeral '\n' = false := rfl
  unfold munch
  split
  · rw [(span_stop hword cs ds).1, (span_stop hword cs ds).2]
  split
  · rw [(span_stop hnumeral cs ds).1, (span_stop hnumeral cs ds).2]
  -- an equals sign may take along what follows it, but no line feed
  match cs with
  | [] => split <;> simp_all
  | c :: cs => split <;> simp_all

namespace Trivia

/-- What a separator ends in front of is there already. -/
theorem split_append_of_rest {inComment : Bool} {cs rest : List Char} {c : Char}
    (h : (split inComment cs).2 = c :: rest) (ds : List Char) :
    split inComment (cs ++ ds) = ((split inComment cs).1, c :: rest ++ ds) := by
  fun_induction split inComment cs with
  | case1 => cases h
  | case2 d cs trivia rest' hsplit ih =>
    rw [hsplit] at ih
    rw [List.cons_append, split_comment, ih h]
  | case3 d cs hblank trivia rest' hsplit ih =>
    rw [hsplit] at ih
    rw [List.cons_append, split_blank hblank, ih h]
  | case4 cs trivia rest' hsplit _ ih =>
    rw [hsplit] at ih
    rw [List.cons_append, split_numberSign, ih h]
  | case5 d cs hblank hne =>
    cases h
    rw [List.cons_append, split_of_ne (Bool.eq_false_iff.2 hblank) hne]

/-- A text of separators only, be the last of them a comment that is not ended, makes a separator
with the line feed behind it. -/
theorem split_lineBreak {inComment : Bool} {cs : List Char} (h : (split inComment cs).2 = [])
    (ds : List Char) :
    split inComment (cs ++ '\n' :: ds) =
      (cs ++ '\n' :: (split false ds).1, (split false ds).2) := by
  fun_induction split inComment cs with
  | case1 inComment =>
    cases inComment with
    | true => rfl
    | false => exact split_blank rfl ds
  | case2 d cs trivia rest hsplit ih =>
    rw [hsplit] at ih
    rw [List.cons_append, split_comment, ih h, List.cons_append]
  | case3 d cs hblank trivia rest hsplit ih =>
    rw [hsplit] at ih
    rw [List.cons_append, split_blank hblank, ih h, List.cons_append]
  | case4 cs trivia rest hsplit _ ih =>
    rw [hsplit] at ih
    rw [List.cons_append, split_numberSign, ih h, List.cons_append]
  | case5 => cases h

end Trivia

/-! ### Reading line by line -/

/-- Reading on does not go back to a line in front. -/
theorem Location.line_le_advance (l : Location) (cs : List Char) :
    l.line ≤ (l.advance cs).line := by
  induction cs generalizing l with
  | nil => exact Nat.le_refl _
  | cons c cs ih =>
    have hafter : l.line ≤ (l.after c).line := by
      unfold after
      split
      · exact Nat.le_succ _
      · exact Nat.le_refl _
    exact Nat.le_trans hafter (ih (l.after c))

namespace Source

variable {cs : List Char} {l : Location}

/-- Reading goes over the text in front of it and stops somewhere in it. -/
theorem advance_next (s : Source) :
    s.next.2.location.advance s.next.2.rest = s.location.advance s.rest := by
  have htrivia := Trivia.split_append false s.rest
  unfold next
  generalize Trivia.split false s.rest = parts at htrivia ⊢
  obtain ⟨trivia, _ | ⟨first, more⟩⟩ := parts
  · rw [← htrivia, Location.advance_append]
  · have hmunch := Lexeme.munch_append first more
    dsimp only at htrivia ⊢
    rw [← htrivia, ← hmunch, Location.advance_append, Location.advance_append]
    split <;> rfl

/-- A token is on no line behind the one that reading stops on. -/
theorem line_le_of_next (s : Source) (t : Token) (h : s.next.1 = .ok (.token t)) :
    t.location.line ≤ s.next.2.location.line := by
  unfold next at h ⊢
  generalize Trivia.split false s.rest = parts at h ⊢
  obtain ⟨trivia, _ | ⟨first, more⟩⟩ := parts
  · cases h
  · dsimp only at h ⊢
    split at h
    · cases h
      exact Location.line_le_advance _ _
    · cases h

theorem tokenize_of_endOfInput {src rest : Source} {stop : Location}
    (h : src.next = (.ok (.endOfInput stop), rest)) : src.tokenize = .ok ⟨[], stop⟩ := by
  rw [tokenize_eq, h]

theorem tokenize_of_token {src rest : Source} {t : Token} {s : TokenStream}
    (h : src.next = (.ok (.token t), rest)) (hrest : rest.tokenize = .ok s) :
    src.tokenize = .ok (s.cons t) := by
  rw [tokenize_eq, h]
  dsimp only
  rw [hrest]
  rfl

/-- Texts with tokens are read token by token. -/
theorem tokenize_induction
    {motive : (src : Source) → (s : TokenStream) → src.tokenize = .ok s → Prop}
    (endOfInput : ∀ {src rest : Source} {stop : Location}
      (h : src.next = (.ok (.endOfInput stop), rest)),
      motive src ⟨[], stop⟩ (tokenize_of_endOfInput h))
    (token : ∀ {src rest : Source} {t : Token} {s : TokenStream}
      (h : src.next = (.ok (.token t), rest)) (hrest : rest.tokenize = .ok s),
      motive rest s hrest → motive src (s.cons t) (tokenize_of_token h hrest))
    {src : Source} {s : TokenStream} (h : src.tokenize = .ok s) : motive src s h := by
  induction hlen : src.rest.length using Nat.strongRecOn generalizing src s with
  | _ n ih =>
    have hread := h
    rw [tokenize_eq] at hread
    rcases hnext : src.next with ⟨_ | (t | stop), rest⟩
    · rw [hnext] at hread
      cases hread
    · have hlt := length_next_lt (s := src) (by simp [hnext])
      rw [hnext] at hread hlt
      dsimp only at hread hlt
      cases hrest : rest.tokenize with
      | error e =>
        rw [hrest] at hread
        cases hread
      | ok u =>
        rw [hrest] at hread
        cases hread
        exact token hnext hrest (ih rest.rest.length (by omega) hrest rfl)
    · rw [hnext] at hread
      cases hread
      exact endOfInput hnext

/-- If nothing but separators is left, reading goes on behind the line feed. -/
theorem next_lineBreak_of_endOfInput {stop : Location} (h : (mk cs l).next.1 = .ok (.endOfInput stop))
    (ds : List Char) :
    (mk (cs ++ '\n' :: ds) l).next = (mk ds ((l.advance cs).after '\n')).next := by
  have hnone : (Trivia.split false cs).2 = [] := by
    cases hrest : (Trivia.split false cs).2 with
    | nil => rfl
    | cons first more =>
      simp only [next, hrest] at h
      split at h <;> cases h
  unfold next
  simp only [Trivia.split_lineBreak hnone, Location.advance_append, Location.advance_cons]

/-- A word, well formed or not, does not depend on what is behind the line feed. -/
theorem next_lineBreak (h : ∀ stop, (mk cs l).next.1 ≠ .ok (.endOfInput stop)) (ds : List Char) :
    (mk (cs ++ '\n' :: ds) l).next = ((mk cs l).next.1,
      ⟨(mk cs l).next.2.rest ++ '\n' :: ds, (mk cs l).next.2.location⟩) := by
  cases hrest : (Trivia.split false cs).2 with
  | nil =>
    simp only [next, hrest] at h
    exact absurd rfl (h _)
  | cons first more =>
    simp only [next, Trivia.split_append_of_rest hrest, List.cons_append, Lexeme.munch_lineBreak,
      hrest]
    split <;> rfl

/-- **A text is read line by line.**  The tokens in front of a line feed and those behind it are
read as if the other ones were not there. -/
theorem tokenize_lineBreak (cs ds : List Char) (l : Location) :
    (mk (cs ++ '\n' :: ds) l).tokenize =
      match (mk cs l).tokenize with
      | .error e => .error e
      | .ok s => (mk ds ((l.advance cs).after '\n')).tokenize.map fun t =>
          ⟨s.tokens ++ t.tokens, t.stop⟩ := by
  induction hlen : cs.length using Nat.strongRecOn generalizing cs l with
  | _ n ih =>
    rw [tokenize_eq (mk cs l), tokenize_eq (mk (cs ++ '\n' :: ds) l)]
    have hadvance := advance_next (mk cs l)
    rcases hnext : (mk cs l).next with ⟨_ | (t | stop), rest, l'⟩
    · rw [next_lineBreak (by simp [hnext]), hnext]
    · have hlt := length_next_lt (s := mk cs l) (by simp [hnext])
      rw [next_lineBreak (by simp [hnext]), hnext]
      rw [hnext] at hadvance hlt
      dsimp only at hadvance hlt ⊢
      rw [ih rest.length (by omega) rest l' rfl, hadvance]
      cases (mk rest l').tokenize with
      | error e => rfl
      | ok s =>
        dsimp only [Except.map]
        cases (mk ds ((l.advance cs).after '\n')).tokenize <;> rfl
    · rw [next_lineBreak_of_endOfInput (congrArg Prod.fst hnext), ← tokenize_eq]
      dsimp only
      cases (mk ds ((l.advance cs).after '\n')).tokenize <;> rfl

/-- No token is on a line behind the last one. -/
theorem line_le_of_tokenize {src : Source} {s : TokenStream} (h : src.tokenize = .ok s) :
    ∀ t ∈ s.tokens, t.location.line ≤ (src.location.advance src.rest).line := by
  induction h using tokenize_induction with
  | endOfInput => exact List.forall_mem_nil _
  | @token src rest t s hnext _ ih =>
    have hadvance := advance_next src
    have htoken := line_le_of_next src t
    rw [hnext] at hadvance htoken
    rw [← hadvance]
    exact List.forall_mem_cons.2
      ⟨Nat.le_trans (htoken rfl) (Location.line_le_advance rest.location rest.rest), ih⟩

end Source

/-! ### Further down -/

/-- The location `n` lines further down. -/
def Location.down (n : Nat) (l : Location) : Location := ⟨l.line + n, l.column⟩

/-- A token at another place. -/
def Token.moved (place : Location → Location) (t : Token) : Token := ⟨t.lexeme, place t.location⟩

/-- An entry at another place. -/
def Entry.moved (place : Location → Location) : Entry → Entry
  | token t => token (t.moved place)
  | endOfInput l => endOfInput (place l)

/-- A stream at another place. -/
def TokenStream.moved (place : Location → Location) (s : TokenStream) : TokenStream :=
  ⟨s.tokens.map (Token.moved place), place s.stop⟩

/-- A malformed literal at another place. -/
def MalformedNumber.moved (place : Location → Location) (e : MalformedNumber) : MalformedNumber :=
  ⟨e.literal, place e.location⟩

namespace Location

theorem after_down (n : Nat) (l : Location) (c : Char) :
    (l.down n).after c = (l.after c).down n := by
  unfold after
  split
  · exact congrArg (mk · 1) (Nat.add_right_comm l.line n 1)
  · rfl

theorem advance_down (n : Nat) (l : Location) (cs : List Char) :
    (l.down n).advance cs = (l.advance cs).down n := by
  induction cs generalizing l with
  | nil => rfl
  | cons c cs ih => rw [advance_cons, advance_cons, after_down, ih]

/-- Behind a line feed a text begins anew, as many lines further down as there are line feeds in
front of it. -/
theorem advance_lineBreak (cs : List Char) :
    (start.advance cs).after '\n' = start.down ((cs ++ ['\n']).count '\n') := by
  have hadvance := advance_start (cs ++ ['\n'])
  rw [advance_append] at hadvance
  exact hadvance.trans (by simp [behind, down, start])

end Location

namespace Source

/-- The next entry is the same further down. -/
theorem next_down (n : Nat) (src : Source) :
    (mk src.rest (src.location.down n)).next =
      (src.next.1.mapError (MalformedNumber.moved (.down n)) |>.map (Entry.moved (.down n)),
        ⟨src.next.2.rest, src.next.2.location.down n⟩) := by
  unfold next
  generalize Trivia.split false src.rest = parts
  obtain ⟨trivia, _ | ⟨first, more⟩⟩ := parts
  · simp [Location.advance_down, Except.mapError, Except.map, Entry.moved]
  · dsimp only
    rw [Location.advance_down, Location.advance_down]
    split <;> rfl

/-- A text is read in the same way further down: its tokens are the same there, and so is the
literal for which it cannot be read. -/
theorem tokenize_down (n : Nat) (cs : List Char) (l : Location) :
    (mk cs (l.down n)).tokenize =
      ((mk cs l).tokenize.mapError (MalformedNumber.moved (.down n))).map
        (TokenStream.moved (.down n)) := by
  induction hlen : cs.length using Nat.strongRecOn generalizing cs l with
  | _ k ih =>
    have hdown : (mk cs (l.down n)).next = _ := next_down n (mk cs l)
    rw [tokenize_eq (mk cs l), tokenize_eq (mk cs (l.down n)), hdown]
    rcases hnext : (mk cs l).next with ⟨e | t | stop, rest, l'⟩
    · rfl
    · have hlt := length_next_lt (s := mk cs l) (by simp [hnext])
      rw [hnext] at hlt
      have hrest := ih rest.length (hlen ▸ hlt) rest l' rfl
      dsimp only [Except.mapError, Except.map, Entry.moved]
      rw [hrest]
      cases (mk rest l').tokenize <;> rfl
    · rfl

/-- **Of two lines, each is read by itself.**  Let the texts `a` and `b` be joined by a line feed.
If `a` cannot be read, then neither can the whole, for the same literal.  If only `b` cannot be
read, the whole cannot for the same literal, as many lines further down as begin in front of `b`.
Otherwise what is found in the whole is what is found in `a` in front of its end, and then what is
found in `b`, its end included, that many lines further down and in the same columns. -/
theorem tokenize_twoLines (a b : String) :
    (ofString (a ++ "\n" ++ b)).tokenize.map TokenStream.entries =
      match (ofString a).tokenize, (ofString b).tokenize with
      | .error e, _ => .error e
      | .ok _, .error e => .error (e.moved (.down (a.toList.count '\n' + 1)))
      | .ok s, .ok t =>
        .ok (s.entries.dropLast ++ t.entries.map (.moved (.down (a.toList.count '\n' + 1)))) := by
  have hsource : ∀ text : String, ofString text = ⟨text.toList, .start⟩ := fun _ => rfl
  have hchars : (a ++ "\n" ++ b).toList = a.toList ++ '\n' :: b.toList := by simp
  have hbelow : (a.toList ++ ['\n']).count '\n' = a.toList.count '\n' + 1 := by simp
  rw [hsource, hsource a, hsource b, hchars, tokenize_lineBreak, Location.advance_lineBreak, hbelow,
    tokenize_down]
  cases (mk a.toList .start).tokenize with
  | error e => rfl
  | ok s =>
    cases (mk b.toList .start).tokenize with
    | error e => rfl
    | ok t =>
      simp [Except.map, Except.mapError, TokenStream.entries, TokenStream.moved, Entry.moved]

example : ((ofString "x = # one\n= y").tokenize.toOption.map fun s =>
    s.entries.map fun e => (e.describe, e.location)) =
      some [("identifier 'x'", ⟨1, 1⟩), ("operator '='", ⟨1, 3⟩), ("operator '='", ⟨2, 1⟩),
        ("identifier 'y'", ⟨2, 3⟩), ("end of input", ⟨2, 4⟩)] := by decide +kernel

end Source

end Reckoner
