import Reckoner.Grammar.Forward

/-!
# What a parser reads

A parser that succeeds has read some words: those that stand between the front of the stream it
was given and the front of the stream it leaves.  Everything that is known about the grammar is
said in these terms, so this module names the words between two streams and says, for each of
the small parsers, what it reads and when.

## Main definitions

* `TokenStream.Spans s ws t` — the words `ws` stand at the front of `s`, and `t` is behind them.
* `TokenStream.lexemes` — the words ahead.
* `Parser.commaSeparated` — rows of words with commas between them.
* `Parser.ReadsItems` — the items of a list that are read with success.

## Main results

* `TokenStream.spans_append` — a row of words is read in parts.
* `TokenStream.spans_iff` — the words between two streams are those of the tokens between them.
* `Parser.bind_eq_ok_iff` — a step and what follows it succeed together.
* `Parser.listUntilClosed_of_spans`, `Parser.spans_of_listUntilClosed` — a list is read exactly if
  its items are, with commas between them.
-/

namespace Reckoner

@[simp] theorem Entry.isOperator_operator (found text : String) (l : Location) :
    (Entry.token ⟨.operator found, l⟩).isOperator text = decide (found = text) := rfl

/-! ### Words between two streams -/

namespace TokenStream

/-- The words ahead. -/
def lexemes (s : TokenStream) : List Lexeme := s.tokens.map Token.lexeme

/-- `s.Spans ws t`: the words `ws` stand at the front of `s`, and `t` is what is behind them. -/
def Spans : TokenStream → List Lexeme → TokenStream → Prop
  | s, [], t => s = t
  | s, w :: ws, t => ∃ l, s.head = .token ⟨w, l⟩ ∧ s.tail.Spans ws t

@[simp] theorem spans_nil {s t : TokenStream} : s.Spans [] t ↔ s = t := Iff.rfl

theorem spans_cons {s t : TokenStream} {w : Lexeme} {ws : List Lexeme} :
    s.Spans (w :: ws) t ↔ ∃ l, s.head = .token ⟨w, l⟩ ∧ s.tail.Spans ws t := Iff.rfl

theorem spans_singleton {s t : TokenStream} {w : Lexeme} :
    s.Spans [w] t ↔ ∃ l, s.head = .token ⟨w, l⟩ ∧ s.tail = t := Iff.rfl

theorem spans_append {s t : TokenStream} {v w : List Lexeme} :
    s.Spans (v ++ w) t ↔ ∃ u, s.Spans v u ∧ u.Spans w t := by
  induction v generalizing s with
  | nil => simp
  | cons a v ih =>
    rw [List.cons_append, spans_cons]
    constructor
    · rintro ⟨l, hhead, htail⟩
      obtain ⟨u, hv, hw⟩ := ih.1 htail
      exact ⟨u, ⟨l, hhead, hv⟩, hw⟩
    · rintro ⟨u, ⟨l, hhead, hv⟩, hw⟩
      exact ⟨l, hhead, ih.2 ⟨u, hv, hw⟩⟩

theorem eq_cons_of_head {s : TokenStream} {a : Token} (h : s.head = .token a) :
    s = s.tail.cons a := by
  obtain ⟨_ | ⟨b, tokens⟩, stop⟩ := s
  · cases h
  · cases h
    rfl

/-- The words between two streams are those of the tokens that the first has before the second. -/
theorem spans_iff {s t : TokenStream} {ws : List Lexeme} :
    s.Spans ws t ↔
      s.stop = t.stop ∧ ∃ ts : List Token, s.tokens = ts ++ t.tokens ∧ ts.map Token.lexeme = ws := by
  induction ws generalizing s with
  | nil =>
    obtain ⟨tokens, stop⟩ := s
    obtain ⟨tokens', stop'⟩ := t
    simp [spans_nil, and_comm]
  | cons w ws ih =>
    rw [spans_cons]
    constructor
    · rintro ⟨l, hhead, htail⟩
      obtain ⟨hstop, ts, htokens, hws⟩ := ih.1 htail
      refine ⟨hstop, ⟨w, l⟩ :: ts, ?_, ?_⟩
      · rw [eq_cons_of_head hhead, List.cons_append, ← htokens]
        rfl
      · rw [List.map_cons, hws]
    · rintro ⟨hstop, ts, htokens, hws⟩
      obtain ⟨_ | ⟨a, more⟩, stop⟩ := s
      · cases ts with
        | nil => cases hws
        | cons a ts => cases htokens
      · cases ts with
        | nil => cases hws
        | cons b ts =>
          rw [List.cons_append, List.cons.injEq] at htokens
          obtain ⟨rfl, rfl⟩ := htokens
          rw [List.map_cons, List.cons.injEq] at hws
          obtain ⟨rfl, rfl⟩ := hws
          exact ⟨a.location, rfl, ih.2 ⟨hstop, ts, rfl, rfl⟩⟩

theorem Spans.isRestOf {s t : TokenStream} {ws : List Lexeme} (h : s.Spans ws t) :
    t.IsRestOf s := by
  obtain ⟨hstop, ts, htokens, -⟩ := spans_iff.1 h
  exact ⟨hstop.symm, ts, htokens.symm⟩

/-- All words of a stream stand in front of its end. -/
theorem spans_lexemes (s : TokenStream) : s.Spans s.lexemes ⟨[], s.stop⟩ :=
  spans_iff.2 ⟨rfl, s.tokens, by rw [List.append_nil], rfl⟩

end TokenStream

/-! ### What the small parsers read -/

namespace Parser

variable {α β : Type}

theorem bind_eq_ok_iff {p : Parser α} {f : α → Parser β} {s u : TokenStream} {b : β} :
    (p >>= f) s = .ok b u ↔ ∃ a t, p s = .ok a t ∧ f a t = .ok b u := by
  cases hp : p s with
  | ok a t =>
    rw [bind_run_ok hp]
    constructor
    · intro hf
      exact ⟨a, t, rfl, hf⟩
    · rintro ⟨a', t', heq, hf⟩
      cases heq
      exact hf
  | error e t =>
    rw [bind_run_error hp]
    constructor
    · intro h
      cases h
    · rintro ⟨a, u, heq, -⟩
      cases heq

/-- What follows a step depends only on how the step ends. -/
theorem bind_run_congr {p q : Parser α} (f : α → Parser β) {s t : TokenStream} (h : p s = q t) :
    (p >>= f) s = (q >>= f) t := by
  cases hq : q t with
  | ok a u => rw [bind_run_ok (h.trans hq), bind_run_ok hq]
  | error e u => rw [bind_run_error (h.trans hq), bind_run_error hq]

@[simp] theorem pure_run (a : α) (s : TokenStream) : (pure a : Parser α) s = .ok a s := rfl

theorem accept_run (text : String) (s : TokenStream) :
    accept text s = if s.head.isOperator text then .ok true s.tail else .ok false s := by
  split
  · next h => exact accept_of_isOperator h
  · next h => exact accept_of_not_isOperator (Bool.eq_false_iff.2 h)

theorem expectOperator_run (text : String) (expected : Expectation) (s : TokenStream) :
    expectOperator text expected s =
      if s.head.isOperator text then .ok () s.tail else .error (.unexpected s.head expected) s := by
  rw [expectOperator]
  split
  · next h => rw [bind_run_ok (accept_of_isOperator h)]; rfl
  · next h => rw [bind_run_ok (accept_of_not_isOperator (Bool.eq_false_iff.2 h))]; rfl

theorem accept_bind_run (text : String) (f : Bool → Parser α) (s : TokenStream) :
    (accept text >>= f) s = if s.head.isOperator text then f true s.tail else f false s := by
  split
  · next h => rw [bind_run_ok (accept_of_isOperator h)]
  · next h => rw [bind_run_ok (accept_of_not_isOperator (Bool.eq_false_iff.2 h))]

theorem length_lt_of_accept {text : String} {s t : TokenStream}
    (h : accept text s = .ok true t) : t.length < s.length := by
  rw [accept_run] at h
  split at h
  · next hop =>
    cases h
    exact length_tail_lt hop
  · cases h

theorem acceptName_run_of_head {s : TokenStream} {name : String} {l : Location}
    (h : s.head = .token ⟨.identifier name, l⟩) : acceptName s = .ok (some name) s.tail := by
  rw [acceptName, bind_run_ok (current_run s), h]
  rfl

theorem acceptName_run_of_ne {s : TokenStream}
    (h : ∀ name l, s.head ≠ .token ⟨.identifier name, l⟩) : acceptName s = .ok none s := by
  rw [acceptName, bind_run_ok (current_run s)]
  cases hhead : s.head with
  | endOfInput l => rfl
  | token a =>
    obtain ⟨lexeme, l⟩ := a
    cases lexeme with
    | identifier name => exact absurd hhead (h name l)
    | number value => rfl
    | operator text => rfl
    | keyword word => rfl

/-- Whether there is a name or not, looking for one does not fail. -/
theorem exists_acceptName (s : TokenStream) : ∃ name t, acceptName s = .ok name t := by
  by_cases hname : ∃ name l, s.head = .token ⟨.identifier name, l⟩
  · obtain ⟨name, l, hhead⟩ := hname
    exact ⟨some name, s.tail, acceptName_run_of_head hhead⟩
  · exact ⟨none, s, acceptName_run_of_ne fun name l hhead => hname ⟨name, l, hhead⟩⟩

/-- A name that is found is a word that is read; nothing is read if there is none. -/
theorem spans_of_acceptName {s t : TokenStream} {name : Option String}
    (h : acceptName s = .ok name t) : s.Spans (name.toList.map .identifier) t := by
  by_cases hname : ∃ found l, s.head = .token ⟨.identifier found, l⟩
  · obtain ⟨found, l, hhead⟩ := hname
    rw [acceptName_run_of_head hhead] at h
    cases h
    exact ⟨l, hhead, rfl⟩
  · rw [acceptName_run_of_ne fun found l hhead => hname ⟨found, l, hhead⟩] at h
    cases h
    rfl

theorem spans_operator {text : String} {s : TokenStream} (h : s.head.isOperator text = true) :
    s.Spans [.operator text] s.tail := by
  obtain ⟨l, hhead⟩ := Entry.isOperator_iff.1 h
  exact TokenStream.spans_singleton.2 ⟨l, hhead, rfl⟩

/-- An operator that has to come next is a word that is read. -/
theorem expectOperator_eq_ok_iff {text : String} {expected : Expectation} {s t : TokenStream} :
    expectOperator text expected s = .ok () t ↔ s.Spans [.operator text] t := by
  rw [expectOperator_run]
  constructor
  · intro h
    split at h
    · next hop =>
      cases h
      exact spans_operator hop
    · cases h
  · rintro ⟨l, hhead, rfl⟩
    rw [if_pos (Entry.isOperator_iff.2 ⟨l, hhead⟩)]

theorem expectName_eq_ok_iff {expected : Expectation} {s t : TokenStream} {name : String} :
    expectName expected s = .ok name t ↔ s.Spans [.identifier name] t := by
  rw [expectName]
  by_cases h : ∃ found l, s.head = .token ⟨.identifier found, l⟩
  · obtain ⟨found, l, hhead⟩ := h
    rw [bind_run_ok (acceptName_run_of_head hhead)]
    constructor
    · intro hrun
      cases hrun
      exact ⟨l, hhead, rfl⟩
    · rintro ⟨l', hhead', rfl⟩
      cases hhead.symm.trans hhead'
      rfl
  · rw [bind_run_ok (acceptName_run_of_ne fun found l hhead => h ⟨found, l, hhead⟩)]
    constructor
    · intro hrun
      cases hrun
    · rintro ⟨l, hhead, -⟩
      exact absurd ⟨name, l, hhead⟩ h

/-! ### Lists -/

/-- Rows of words with commas between them. -/
def commaSeparated : List (List Lexeme) → List Lexeme
  | [] => []
  | [ws] => ws
  | ws :: wss => ws ++ .operator "," :: commaSeparated wss

@[simp] theorem commaSeparated_nil : commaSeparated [] = [] := rfl

@[simp] theorem commaSeparated_singleton (ws : List Lexeme) : commaSeparated [ws] = ws := rfl

theorem commaSeparated_cons_cons (v w : List Lexeme) (wss : List (List Lexeme)) :
    commaSeparated (v :: w :: wss) = v ++ .operator "," :: commaSeparated (w :: wss) := rfl

theorem mem_commaSeparated {w : Lexeme} {wss : List (List Lexeme)} (h : w ∈ commaSeparated wss) :
    w = .operator "," ∨ ∃ ws ∈ wss, w ∈ ws := by
  induction wss with
  | nil => cases h
  | cons v wss ih =>
    cases wss with
    | nil => exact .inr ⟨v, List.mem_singleton_self v, h⟩
    | cons v' wss =>
      rw [commaSeparated_cons_cons, List.mem_append, List.mem_cons] at h
      rcases h with h | rfl | h
      · exact .inr ⟨v, List.mem_cons_self, h⟩
      · exact .inl rfl
      · rcases ih h with rfl | ⟨ws, hws, hw⟩
        · exact .inl rfl
        · exact .inr ⟨ws, List.mem_cons_of_mem v hws, hw⟩

section Lists

variable {ι γ : Type} {item : Parser α} {expected : Expectation} {words : ι → List Lexeme}
  {value : ι → γ} {view : α → γ} {s t : TokenStream}

/-- Items are read one after the other if each is read in front of what follows it. -/
theorem separated_of_spans (h : item.Forward) {i : ι} {is : List ι}
    (hitem : ∀ j ∈ i :: is, ∀ s u : TokenStream, s.Spans (words j) u →
      u.head.isOperator ")" = true ∨ u.head.isOperator "," = true →
      ∃ a, item s = .ok a u ∧ view a = value j)
    (hs : s.Spans (commaSeparated ((i :: is).map words) ++ [.operator ")"]) t) :
    ∃ as, separated item expected s = .ok as t ∧ as.map view = (i :: is).map value := by
  induction is generalizing i s with
  | nil =>
    obtain ⟨u, hfirst, hclose⟩ := TokenStream.spans_append.1 hs
    obtain ⟨l, hhead, rfl⟩ := TokenStream.spans_singleton.1 hclose
    have hclosed : u.head.isOperator ")" = true := Entry.isOperator_iff.2 ⟨l, hhead⟩
    obtain ⟨a, hrun, hview⟩ := hitem i List.mem_cons_self s u hfirst (.inl hclosed)
    refine ⟨[a], ?_, by rw [List.map_singleton, List.map_singleton, hview]⟩
    rw [separated_eq h, bind_run_ok hrun, accept_bind_run, if_pos hclosed]
    rfl
  | cons j is ih =>
    rw [List.map_cons, List.map_cons, commaSeparated_cons_cons, List.append_assoc,
      List.cons_append] at hs
    obtain ⟨u, hfirst, hrest⟩ := TokenStream.spans_append.1 hs
    obtain ⟨l, hhead, hrest⟩ := TokenStream.spans_cons.1 hrest
    have hcomma : u.head.isOperator "," = true := Entry.isOperator_iff.2 ⟨l, hhead⟩
    have hopen : ¬ u.head.isOperator ")" = true := by
      rw [hhead, Entry.isOperator_operator]
      decide
    obtain ⟨a, hrun, hview⟩ := hitem i List.mem_cons_self s u hfirst (.inr hcomma)
    obtain ⟨as, hmore, hviews⟩ := ih (fun k hk => hitem k (List.mem_cons_of_mem i hk)) hrest
    refine ⟨a :: as, ?_, by rw [List.map_cons, hview, hviews, ← List.map_cons]⟩
    rw [separated_eq h, bind_run_ok hrun, accept_bind_run, if_neg hopen]
    simp only [Bool.false_eq_true, ↓reduceIte]
    rw [accept_bind_run, if_pos hcomma]
    simp only [↓reduceIte]
    rw [bind_run_ok hmore]
    rfl

/-- A list is read if each item is read in front of what follows it, and none begins like the end
of the list. -/
theorem listUntilClosed_of_spans (h : item.Forward) {is : List ι}
    (hitem : ∀ j ∈ is, ∀ s u : TokenStream, s.Spans (words j) u →
      u.head.isOperator ")" = true ∨ u.head.isOperator "," = true →
      ∃ a, item s = .ok a u ∧ view a = value j)
    (hstart : ∀ j ∈ is, ∃ w ws, words j = w :: ws ∧ w ≠ .operator ")")
    (hs : s.Spans (commaSeparated (is.map words) ++ [.operator ")"]) t) :
    ∃ as, listUntilClosed item expected s = .ok as t ∧ as.map view = is.map value := by
  cases is with
  | nil =>
    obtain ⟨l, hhead, rfl⟩ := TokenStream.spans_singleton.1 hs
    refine ⟨[], ?_, rfl⟩
    rw [listUntilClosed, accept_bind_run, if_pos (Entry.isOperator_iff.2 ⟨l, hhead⟩)]
    rfl
  | cons i is =>
    have hopen : ¬ s.head.isOperator ")" = true := by
      obtain ⟨w, ws, hwords, hne⟩ := hstart i List.mem_cons_self
      have hfirst : ∃ l, s.head = .token ⟨w, l⟩ := by
        cases is with
        | nil =>
          rw [List.map_singleton, commaSeparated_singleton, hwords, List.cons_append] at hs
          exact ⟨_, hs.choose_spec.1⟩
        | cons j is =>
          rw [List.map_cons, List.map_cons, commaSeparated_cons_cons, hwords] at hs
          exact ⟨_, hs.choose_spec.1⟩
      obtain ⟨l, hhead⟩ := hfirst
      intro hclosed
      obtain ⟨l', hhead'⟩ := Entry.isOperator_iff.1 hclosed
      rw [hhead] at hhead'
      cases hhead'
      exact hne rfl
    rw [listUntilClosed, accept_bind_run, if_neg hopen]
    simp only [Bool.false_eq_true, ↓reduceIte]
    exact separated_of_spans h hitem hs

/-- The items that are read with success, one or more: behind the last there is the closing
parenthesis, and behind each of the others a comma. -/
inductive ReadsItems (item : Parser α) : TokenStream → List α → TokenStream → Prop
  | last {s t u : TokenStream} {a : α} : item s = .ok a t → t.Spans [.operator ")"] u →
      ReadsItems item s [a] u
  | more {s t u : TokenStream} {a : α} {as : List α} : item s = .ok a t →
      t.head.isOperator "," = true → ReadsItems item t.tail as u → ReadsItems item s (a :: as) u

theorem readsItems_of_separatedUpTo {bound : Nat} {as : List α}
    (hrun : separatedUpTo item expected bound s = .ok as t) : ReadsItems item s as t := by
  induction bound generalizing s as with
  | zero =>
    obtain ⟨a, u, hfirst, hrun⟩ := bind_eq_ok_iff.1 hrun
    obtain ⟨⟨⟩, v, hclosed, hrun⟩ := bind_eq_ok_iff.1 hrun
    cases hrun
    exact .last hfirst (expectOperator_eq_ok_iff.1 hclosed)
  | succ bound ih =>
    obtain ⟨a, u, hfirst, hrun⟩ := bind_eq_ok_iff.1 hrun
    rw [accept_bind_run] at hrun
    split at hrun
    · next hclosed =>
      cases hrun
      exact .last hfirst (spans_operator hclosed)
    · simp only [Bool.false_eq_true, ↓reduceIte] at hrun
      rw [accept_bind_run] at hrun
      split at hrun
      · next hcomma =>
        simp only [↓reduceIte] at hrun
        obtain ⟨more, v, hmore, hrun⟩ := bind_eq_ok_iff.1 hrun
        cases hrun
        exact .more hfirst hcomma (ih hmore)
      · cases hrun

/-- A list that was read is empty, or has items. -/
theorem readsItems_of_listUntilClosed {as : List α}
    (hrun : listUntilClosed item expected s = .ok as t) :
    as = [] ∧ s.Spans [.operator ")"] t ∨ ReadsItems item s as t := by
  rw [listUntilClosed, accept_bind_run] at hrun
  split at hrun
  · next hclosed =>
    cases hrun
    exact .inl ⟨rfl, spans_operator hclosed⟩
  · simp only [Bool.false_eq_true, ↓reduceIte] at hrun
    exact .inr (readsItems_of_separatedUpTo hrun)

/-- Each item was read somewhere in the stream. -/
theorem ReadsItems.exists_of_mem (h : item.Forward) {as : List α} (hitems : ReadsItems item s as t)
    {a : α} (ha : a ∈ as) : ∃ u v, u.IsRestOf s ∧ item u = .ok a v := by
  induction hitems with
  | @last s u t b hfirst hclosed =>
    obtain rfl := List.mem_singleton.1 ha
    exact ⟨s, u, .refl s, hfirst⟩
  | @more s t u b bs hfirst hcomma hrest ih =>
    rcases List.mem_cons.1 ha with rfl | ha
    · exact ⟨s, t, .refl s, hfirst⟩
    · obtain ⟨v, w, hv, hread⟩ := ih ha
      exact ⟨v, w, hv.trans ((TokenStream.IsRestOf.tail t).trans (h.of_ok hfirst)), hread⟩

/-- The items that were read have commas between them and a parenthesis behind them. -/
theorem ReadsItems.spans {P : ι → Prop}
    (hitem : ∀ {s u : TokenStream} {a : α}, item s = .ok a u →
      ∃ i, P i ∧ s.Spans (words i) u ∧ view a = value i)
    {as : List α} (hitems : ReadsItems item s as t) :
    ∃ (i : ι) (is : List ι), (∀ j ∈ i :: is, P j) ∧
      s.Spans (commaSeparated ((i :: is).map words) ++ [.operator ")"]) t ∧
      as.map view = (i :: is).map value := by
  induction hitems with
  | @last s u t a hfirst hclosed =>
    obtain ⟨i, hi, hwords, hview⟩ := hitem hfirst
    refine ⟨i, [], by simpa using hi, TokenStream.spans_append.2 ⟨u, hwords, hclosed⟩, ?_⟩
    rw [List.map_singleton, List.map_singleton, hview]
  | @more s t u a as hfirst hcomma _ ih =>
    obtain ⟨i, hi, hwords, hview⟩ := hitem hfirst
    obtain ⟨j, js, hjs, hrest, hviews⟩ := ih
    obtain ⟨l, hhead, -⟩ := TokenStream.spans_singleton.1 (spans_operator hcomma)
    refine ⟨i, j :: js, List.forall_mem_cons.2 ⟨hi, hjs⟩, ?_, by
      rw [List.map_cons, hview, hviews, ← List.map_cons]⟩
    rw [List.map_cons, List.map_cons, commaSeparated_cons_cons, List.append_assoc,
      List.cons_append]
    exact TokenStream.spans_append.2 ⟨t, hwords, l, hhead, hrest⟩

/-- The items of a list that was read have commas between them and a parenthesis behind them;
there may be no item. -/
theorem spans_of_listUntilClosed {P : ι → Prop}
    (hitem : ∀ {s u : TokenStream} {a : α}, item s = .ok a u →
      ∃ i, P i ∧ s.Spans (words i) u ∧ view a = value i)
    {as : List α} (hrun : listUntilClosed item expected s = .ok as t) :
    ∃ is : List ι, (∀ i ∈ is, P i) ∧ s.Spans (commaSeparated (is.map words) ++ [.operator ")"]) t ∧
      as.map view = is.map value := by
  rcases readsItems_of_listUntilClosed hrun with ⟨rfl, hclosed⟩ | hitems
  · exact ⟨[], fun i hi => absurd hi List.not_mem_nil, hclosed, rfl⟩
  · obtain ⟨i, is, his, hspans, hviews⟩ := hitems.spans hitem
    exact ⟨i :: is, his, hspans, hviews⟩

/-- Each item of a list was read somewhere in the stream. -/
theorem exists_of_mem_listUntilClosed (h : item.Forward) {as : List α}
    (hrun : listUntilClosed item expected s = .ok as t) {a : α} (ha : a ∈ as) :
    ∃ u v, u.IsRestOf s ∧ item u = .ok a v := by
  rcases readsItems_of_listUntilClosed hrun with ⟨rfl, -⟩ | hitems
  · exact absurd ha List.not_mem_nil
  · exact hitems.exists_of_mem h ha

end Lists

end Parser

end Reckoner
