import Reckoner.Proofs.Lookahead
import Reckoner.Proofs.Sentences

/-!
# Failing as early as possible

The reader of statements fails at the first entry with which the line cannot go on to be a
statement, and at no later one.  Nothing behind that entry has been looked at; and what has been
read in front of it can still be completed to a sentence of the grammar.

What is completed is a flat row of words, so that nothing has to be known about precedence: an
operand that has been begun is completed alone, a parenthesis is closed, and behind an operator
any operand will do.  Only the levels of nesting have to suffice, and they do because the reader has
counted them already.

## Main definitions

* `TokenStream.Begins s L t` — what stands between two streams begins words of a language.
* `Parser.Viable` — what a parser has read when it meets an unexpected entry can be completed.
* `LineReader.FailsEarliest` — that a failure could have been noticed no earlier, and was noticed
  without looking further.

## Main results

* `Grammar.expression_viable`, `Grammar.statement_viable` — the grammar reads viable beginnings.
* `LineReader.readStatement_failsEarliest` — **a statement that cannot be read fails at the earliest
  possible entry.**
-/

namespace Reckoner

/-! ### Beginnings -/

namespace TokenStream

variable {s t u : TokenStream} {L M : List Lexeme → Prop} {ws : List Lexeme}

/-- `s.Begins L t`: what stands between `s` and `t` is the beginning of words of the language `L`.
-/
def Begins (s : TokenStream) (L : List Lexeme → Prop) (t : TokenStream) : Prop :=
  ∃ ws more, s.Spans ws t ∧ L (ws ++ more)

/-- Nothing is the beginning of all words. -/
theorem begins_refl (s : TokenStream) (h : L ws) : s.Begins L s := ⟨[], ws, rfl, h⟩

/-- What has been read and what begins its continuation are a beginning together. -/
theorem Begins.of_spans (hs : s.Spans ws t) (h : t.Begins (fun vs => L (ws ++ vs)) u) :
    s.Begins L u := by
  obtain ⟨vs, more, hspans, hmore⟩ := h
  refine ⟨ws ++ vs, more, spans_append.2 ⟨t, hs, hspans⟩, ?_⟩
  rw [List.append_assoc]
  exact hmore

theorem Begins.of_head {w : Lexeme} {l : Location} (hs : s.head = .token ⟨w, l⟩)
    (h : s.tail.Begins (fun vs => L (w :: vs)) u) : s.Begins L u :=
  .of_spans (spans_singleton.2 ⟨l, hs, rfl⟩) h

/-- A beginning is one of longer words. -/
theorem Begins.extend (h : s.Begins L t) (hL : ∀ ws, L ws → ∃ more, M (ws ++ more)) :
    s.Begins M t := by
  obtain ⟨ws, more, hspans, hmore⟩ := h
  obtain ⟨last, hlast⟩ := hL _ hmore
  rw [List.append_assoc] at hlast
  exact ⟨ws, more ++ last, hspans, hlast⟩

theorem Begins.mono (h : s.Begins L t) (hL : ∀ ws, L ws → M ws) : s.Begins M t :=
  h.extend fun ws hws => ⟨[], by rw [List.append_nil]; exact hL ws hws⟩

end TokenStream

/-! ### Parsers that read viable beginnings -/

namespace Parser

open TokenStream

variable {α β : Type} {s t u : TokenStream} {e : ParseError}

/-- What a parser has read when it meets an entry that it did not expect is the beginning of words
of the language `L`. -/
def Viable (p : Parser α) (L : List Lexeme → Prop) : Prop :=
  ∀ ⦃s t : TokenStream⦄ ⦃found : Entry⦄ ⦃expected : Expectation⦄,
    p s = .error (.unexpected found expected) t → s.Begins L t

theorem bind_eq_error_iff {p : Parser α} {f : α → Parser β} :
    (p >>= f) s = .error e u ↔
      p s = .error e u ∨ ∃ a t, p s = .ok a t ∧ f a t = .error e u := by
  cases hp : p s with
  | ok a t =>
    rw [bind_run_ok hp]
    constructor
    · intro hf
      exact .inr ⟨a, t, rfl, hf⟩
    · rintro (h | ⟨a', t', heq, hf⟩)
      · cases h
      · cases heq
        exact hf
  | error e' t =>
    rw [bind_run_error hp]
    constructor
    · intro h
      cases h
      exact .inl rfl
    · rintro (h | ⟨a, t', heq, -⟩)
      · cases h
        rfl
      · cases heq

/-- A parser whose result is only rearranged fails if it does. -/
theorem of_bind_pure_eq_error {p : Parser α} {g : α → β}
    (h : (p >>= fun a => pure (g a)) s = .error e u) : p s = .error e u := by
  rcases bind_eq_error_iff.1 h with h | ⟨a, t, -, h⟩
  · exact h
  · cases h

/-- An operator that does not come next is missed where it should be. -/
theorem eq_of_expectOperator_eq_error {text : String} {expected : Expectation}
    (h : expectOperator text expected s = .error e u) : u = s := by
  rw [expectOperator_run] at h
  split at h
  · cases h
  · cases h
    rfl

/-- A name that does not come next is missed where it should be. -/
theorem eq_of_expectName_eq_error {expected : Expectation}
    (h : expectName expected s = .error e u) : u = s := by
  obtain ⟨name, t, hname⟩ := exists_acceptName s
  rw [expectName, bind_run_ok hname] at h
  cases name with
  | some name => cases h
  | none =>
    cases h
    exact (spans_of_acceptName hname).symm

/-! ### Lists -/

/-- The words behind an opening parenthesis if there is at least one item: words of `L`, with a
comma behind each but the last, and the closing parenthesis behind that. -/
inductive Items (L : List Lexeme → Prop) : List Lexeme → Prop
  | last {ws : List Lexeme} : L ws → Items L (ws ++ [.operator ")"])
  | more {v ws : List Lexeme} : L v → Items L ws → Items L (v ++ .operator "," :: ws)

/-- The words behind an opening parenthesis, where there may be no item. -/
def IsListOf (L : List Lexeme → Prop) (ws : List Lexeme) : Prop :=
  ∃ wss : List (List Lexeme), (∀ v ∈ wss, L v) ∧ ws = commaSeparated wss ++ [.operator ")"]

section Lists

variable {L : List Lexeme → Prop} {item : Parser α} {expected : Expectation} {ws : List Lexeme}

theorem Items.exists_eq (h : Items L ws) : ∃ (v : List Lexeme) (wss : List (List Lexeme)),
    (∀ w ∈ v :: wss, L w) ∧ ws = commaSeparated (v :: wss) ++ [.operator ")"] := by
  induction h with
  | @last ws hws => exact ⟨ws, [], by simpa using hws, rfl⟩
  | @more v ws hv _ ih =>
    obtain ⟨w, wss, hwss, rfl⟩ := ih
    refine ⟨v, w :: wss, List.forall_mem_cons.2 ⟨hv, hwss⟩, ?_⟩
    rw [commaSeparated_cons_cons, List.append_assoc, List.cons_append]

theorem Items.isListOf (h : Items L ws) : IsListOf L ws := by
  obtain ⟨v, wss, hwss, heq⟩ := h.exists_eq
  exact ⟨v :: wss, hwss, heq⟩

/-- The items of a list can be gone on with, or closed, wherever reading them stops. -/
theorem separatedUpTo_viable
    (hreads : ∀ {s t : TokenStream} {a : α}, item s = .ok a t → ∃ ws, s.Spans ws t ∧ L ws)
    (hitem : item.Viable L) (bound : Nat) :
    (separatedUpTo item expected bound).Viable (Items L) := by
  -- an item that has been begun can be finished and closed, and one that is there can be closed
  have hbegun : ∀ {s t : TokenStream}, s.Begins L t → s.Begins (Items L) t :=
    fun h => h.extend fun ws hws => ⟨_, .last hws⟩
  have hread : ∀ {s t : TokenStream} {ws : List Lexeme}, s.Spans ws t → L ws →
      s.Begins (Items L) t := fun hspans hws => .of_spans hspans (begins_refl _ (.last hws))
  induction bound with
  | zero =>
    intro s u found _ hrun
    rcases bind_eq_error_iff.1 hrun with hfirst | ⟨a, t, hfirst, hrun⟩
    · exact hbegun (hitem hfirst)
    obtain ⟨ws, hspans, hws⟩ := hreads hfirst
    obtain rfl := eq_of_expectOperator_eq_error (of_bind_pure_eq_error hrun)
    exact hread hspans hws
  | succ bound ih =>
    intro s u found _ hrun
    rcases bind_eq_error_iff.1 hrun with hfirst | ⟨a, t, hfirst, hrun⟩
    · exact hbegun (hitem hfirst)
    obtain ⟨ws, hspans, hws⟩ := hreads hfirst
    rw [accept_bind_run] at hrun
    split at hrun
    · cases hrun
    simp only [Bool.false_eq_true, ↓reduceIte] at hrun
    rw [accept_bind_run] at hrun
    split at hrun
    · next hcomma =>
      simp only [↓reduceIte] at hrun
      obtain ⟨l, hhead⟩ := Entry.isOperator_iff.1 hcomma
      have hmore : t.tail.Begins (Items L) u := ih (of_bind_pure_eq_error hrun)
      exact .of_spans hspans (.of_head hhead (hmore.mono fun _ hvs => .more hws hvs))
    · cases hrun
      exact hread hspans hws

theorem listUntilClosed_viable
    (hreads : ∀ {s t : TokenStream} {a : α}, item s = .ok a t → ∃ ws, s.Spans ws t ∧ L ws)
    (hitem : item.Viable L) : (listUntilClosed item expected).Viable (IsListOf L) := by
  intro s u found _ hrun
  rw [listUntilClosed, accept_bind_run] at hrun
  split at hrun
  · cases hrun
  simp only [Bool.false_eq_true, ↓reduceIte] at hrun
  exact (separatedUpTo_viable hreads hitem s.length hrun).mono fun _ => Items.isListOf

end Lists

end Parser

/-! ### Expressions -/

namespace Grammar

open Reckoner.Parser TokenStream

section Expressions

variable {level levels : Nat}

/-- A name is an expression wherever there may be one. -/
theorem derives_name (hlevel : level ≤ maxNesting) :
    Derives .expression level [.identifier "x"] := .alone hlevel (.reference "x")

/-- What is read as an expression is one. -/
theorem derives_of_expression (hlevels : level + levels = maxNesting + 1) {s t : TokenStream}
    {node : Node} (h : expression levels s = .ok node t) :
    ∃ ws, s.Spans ws t ∧ Derives .expression level ws := by
  obtain ⟨b, hb⟩ := bracketed_of_expression h
  have hle := hb.levels_le
  exact ⟨b.words, hb.spans, (hb.sufficient.derives level (by omega)).1⟩

/-- What has been read as a whole can be gone on with behind an operator. -/
theorem Bracketed.Records.begins (hlevels : level + levels = maxNesting) {b : Bracketed}
    {s t u : TokenStream} {node : Node} (hb : b.Records (levels + 1) s node t)
    (hwhole : b.StaysWhole t.head) {op : BinaryOperator} (hop : binaryOperator? t.head = some op)
    (hnext : t.tail.Begins (Derives .expression level) u) :
    s.Begins (Derives .expression level) u := by
  obtain ⟨l, hhead⟩ := binaryOperator?_eq_some_iff.1 hop
  have hle := hb.levels_le
  have hderives := (hb.sufficient.derives level (by omega)).2 (hwhole op hop).1
  exact .of_spans hb.spans (.of_head hhead (hnext.mono fun _ => hderives op))

/-- An operand can be completed wherever reading it stops, and then it is an expression alone. -/
theorem operand_viable (hlevels : level + levels = maxNesting)
    (hinner : (expression levels).Viable (Derives .expression (level + 1))) :
    (operand (expression levels)).Viable (Derives .expression level) := by
  have hlevel : level ≤ maxNesting := by omega
  intro s u found _ hrun
  cases hhead : s.head with
  | endOfInput stop =>
    rw [operand_of_other (by simp [hhead]) (by simp [hhead]) (by rw [hhead]; rfl)] at hrun
    cases hrun
    exact begins_refl s (derives_name hlevel)
  | token a =>
    obtain ⟨lexeme, l⟩ := a
    cases lexeme with
    | number value =>
      rw [operand_of_number hhead] at hrun
      cases hrun
    | keyword word =>
      rw [operand_of_other (by simp [hhead]) (by simp [hhead]) (by rw [hhead]; rfl)] at hrun
      cases hrun
      exact begins_refl s (derives_name hlevel)
    | operator text =>
      by_cases htext : text = "("
      · subst htext
        rw [operand_of_open hhead] at hrun
        refine .of_head hhead ?_
        -- what is in the parentheses, finished or not, can be closed
        have hclose : ∀ ws, Derives .expression (level + 1) ws →
            Derives .expression level (.operator "(" :: (ws ++ [.operator ")"])) :=
          fun ws hws => .alone hlevel (.parenthesized hws)
        rcases bind_eq_error_iff.1 hrun with hinside | ⟨node, t, hinside, hrun⟩
        · exact (hinner hinside).extend fun ws hws => ⟨_, hclose ws hws⟩
        · have hdeeper : level + 1 + levels = maxNesting + 1 := by omega
          obtain ⟨ws, hspans, hws⟩ := derives_of_expression hdeeper hinside
          obtain rfl := eq_of_expectOperator_eq_error (of_bind_pure_eq_error hrun)
          exact .of_spans hspans (begins_refl _ (hclose ws hws))
      · rw [operand_of_other (by simp [hhead]) (by simp [hhead]) (by simp [hhead, htext])] at hrun
        cases hrun
        exact begins_refl s (derives_name hlevel)
    | identifier name =>
      rw [operand_of_name hhead] at hrun
      refine .of_head hhead ?_
      cases hcall : s.tail.head.isOperator "(" with
      | true =>
        rw [afterName_of_open hcall] at hrun
        obtain ⟨l', hopen⟩ := Entry.isOperator_iff.1 hcall
        have hargs : s.tail.tail.Begins (IsListOf (Derives .expression (level + 1))) u :=
          listUntilClosed_viable (derives_of_expression (by omega)) hinner
            (of_bind_pure_eq_error hrun)
        refine .of_head hopen (hargs.mono ?_)
        rintro ws ⟨args, hargs, rfl⟩
        exact .alone hlevel (.call name hargs)
      | false =>
        cases hassigned : s.tail.head.isOperator "=" with
        | true =>
          rw [afterName_of_equals hassigned] at hrun
          obtain ⟨l', hequals⟩ := Entry.isOperator_iff.1 hassigned
          have hvalue := hinner (of_bind_pure_eq_error hrun)
          exact .of_head hequals (hvalue.mono fun ws hws => .assignment name hlevel hws)
        | false =>
          rw [afterName_of_neither hcall hassigned] at hrun
          cases hrun

/-- What is read as an operand and all that binds at least as tightly has a record, and an operator
behind it takes all of it. -/
theorem record_of_operationAtLeast {least : Nat} {s t : TokenStream} {node : Node}
    (h : operationAtLeast (operand (expression levels)) least s = .ok node t) :
    ∃ b : Bracketed, b.Records (levels + 1) s node t ∧ b.StaysWhole t.head := by
  obtain ⟨first, u, hfirst, hclimb⟩ := bind_eq_ok_iff.1 h
  have hrecorded : Recorded levels (expression levels) := recorded_expression levels
  have hclimbs := climbs_of_climb (operand_forward (expression_forward levels)) hclimb
  obtain ⟨b₀, hb₀, -, hwhole₀⟩ := (readsOperand_of_operand hfirst).record hrecorded
  obtain ⟨b, hb, hwhole, -⟩ := hclimbs.record hrecorded hb₀ hwhole₀
  exact ⟨b, hb, hwhole⟩

/-- A climb that fails has gone past an operator, and what it has read behind that begins an
expression. -/
theorem begins_of_climb (hlevels : level + levels = maxNesting)
    (hoperand : (operand (expression levels)).Viable (Derives .expression level)) {least : Nat}
    {left : Node} {s u : TokenStream} {found : Entry} {expected : Expectation}
    (hrun : climb (operand (expression levels)) least left s =
      .error (.unexpected found expected) u) :
    ∃ op, binaryOperator? s.head = some op ∧ s.tail.Begins (Derives .expression level) u := by
  have hforward := operand_forward (expression_forward levels)
  induction hlen : s.length using Nat.strongRecOn generalizing least left s with
  | _ n ih =>
    by_cases hnext : Continues least s.head
    · obtain ⟨op, hop, hle⟩ := hnext
      refine ⟨op, hop, ?_⟩
      rw [climb_of_continues hforward hop hle] at hrun
      have htail := length_tail_lt_of_binaryOperator hop
      -- the failure is in the right side, or behind it in the climb that goes on
      rcases bind_eq_error_iff.1 hrun with hright | ⟨right, t, hright, hrun⟩
      · rcases bind_eq_error_iff.1 hright with hfirst | ⟨first, t, hfirst, hclimb⟩
        · exact hoperand hfirst
        · have ht := (hforward.of_ok hfirst).length_le
          obtain ⟨next, hnext, hbegins⟩ := ih t.length (by omega) hclimb rfl
          obtain ⟨b, hb, -, hwhole⟩ :=
            (readsOperand_of_operand hfirst).record (recorded_expression levels)
          exact hb.begins hlevels hwhole hnext hbegins
      · have ht := ((operationAtLeast_forward hforward _).of_ok hright).length_le
        obtain ⟨next, hnext, hbegins⟩ := ih t.length (by omega) hrun rfl
        obtain ⟨b, hb, hwhole⟩ := record_of_operationAtLeast hright
        exact hb.begins hlevels hwhole hnext hbegins
    · rw [climb_of_not_continues hforward hnext] at hrun
      cases hrun

end Expressions

/-- An expression can be completed wherever an entry was not expected in it. -/
theorem expression_viable {level levels : Nat} (hlevels : level + levels = maxNesting + 1) :
    (expression levels).Viable (Derives .expression level) := by
  induction levels generalizing level with
  | zero =>
    -- without a level left the failure is another one
    intro s u found _ hrun
    cases hrun
  | succ levels ih =>
    have hlevels' : level + levels = maxNesting := by omega
    have hoperand := operand_viable hlevels' (ih (by omega))
    intro s u found _ hrun
    rcases bind_eq_error_iff.1 hrun with hfirst | ⟨first, t, hfirst, hclimb⟩
    · exact hoperand hfirst
    · obtain ⟨op, hop, hbegins⟩ := begins_of_climb hlevels' hoperand hclimb
      obtain ⟨b, hb, -, hwhole⟩ :=
        (readsOperand_of_operand hfirst).record (recorded_expression levels)
      exact hb.begins hlevels' hwhole hop hbegins

/-! ### Statements -/

/-- A signature can be completed wherever reading it stops. -/
theorem signature_viable : signature.Viable IsSignature := by
  intro s u found _ hrun
  obtain ⟨name, t, hname⟩ := exists_acceptName s
  rw [signature, bind_run_ok (current_run s), bind_run_ok hname] at hrun
  refine .of_spans (spans_of_acceptName hname) ?_
  rcases bind_eq_error_iff.1 hrun with hopen | ⟨⟨⟩, v, hopen, hrun⟩
  · obtain rfl := eq_of_expectOperator_eq_error hopen
    exact begins_refl _ ⟨name, [], rfl⟩
  · have hparams : v.Begins (IsListOf fun ws => ∃ param, ws = [.identifier param]) u := by
      refine listUntilClosed_viable ?_ ?_ (of_bind_pure_eq_error hrun)
      · intro s t param hparam
        exact ⟨_, expectName_eq_ok_iff.1 hparam, param, rfl⟩
      · intro s t found _ hparam
        obtain rfl := eq_of_expectName_eq_error hparam
        exact begins_refl _ ⟨"x", rfl⟩
    refine .of_spans (expectOperator_eq_ok_iff.1 hopen) (hparams.mono ?_)
    rintro ws ⟨wss, hwss, rfl⟩
    obtain ⟨params, -, rfl⟩ := exists_map_eq (P := fun _ => True)
      (f := fun param : String => [Lexeme.identifier param]) fun ws hws => by
        obtain ⟨param, rfl⟩ := hwss ws hws
        exact ⟨param, trivial, rfl⟩
    exact ⟨name, params, rfl⟩

/-- The expression of a statement can be completed wherever an entry was not expected in it. -/
theorem expression_viable_outermost : (expression maxNesting).Viable (Derives .expression 1) :=
  expression_viable (Nat.add_comm 1 maxNesting)

theorem declaration_viable (l : Location) :
    (declaration l).Viable fun ws => IsStatement (.keyword .letWord :: ws) := by
  intro s u found _ hrun
  rw [declaration, bind_run_ok (current_run s)] at hrun
  rcases bind_eq_error_iff.1 hrun with hname | ⟨name, t, hname, hrun⟩
  · obtain rfl := eq_of_expectName_eq_error hname
    exact begins_refl _ (.declaration "x")
  refine .of_spans (expectName_eq_ok_iff.1 hname) ?_
  rw [accept_bind_run] at hrun
  split at hrun
  · next hequals =>
    simp only [↓reduceIte] at hrun
    have hinitial := expression_viable_outermost (of_bind_pure_eq_error hrun)
    obtain ⟨l', hhead⟩ := Entry.isOperator_iff.1 hequals
    exact .of_head hhead (hinitial.mono fun ws hws => .initialized name hws)
  · cases hrun

theorem function_viable (l : Location) :
    (function l).Viable fun ws => IsStatement (.keyword .functionWord :: ws) := by
  intro s u found _ hrun
  -- any name will do as a body
  have hbody : ∀ ws, IsSignature ws →
      IsStatement (.keyword .functionWord :: (ws ++ [.operator "=>", .identifier "x"])) :=
    fun ws hws => .function hws (derives_name (by decide))
  rcases bind_eq_error_iff.1 hrun with hsignature | ⟨result, t, hsignature, hrun⟩
  · exact (signature_viable hsignature).extend fun ws hws => ⟨_, hbody ws hws⟩
  obtain ⟨name, params, hspans, -⟩ := signature_eq_ok_iff.1 hsignature
  refine .of_spans hspans ?_
  rcases bind_eq_error_iff.1 hrun with harrow | ⟨⟨⟩, v, harrow, hrun⟩
  · obtain rfl := eq_of_expectOperator_eq_error harrow
    exact begins_refl _ (hbody _ ⟨name, params, rfl⟩)
  · have hinside := expression_viable_outermost (of_bind_pure_eq_error hrun)
    exact .of_spans (expectOperator_eq_ok_iff.1 harrow)
      (hinside.mono fun ws hws => .function ⟨name, params, rfl⟩ hws)

theorem body_viable : body.Viable IsStatement := by
  intro s u found _ hrun
  by_cases hkeyword : ∃ word l, s.head = .token ⟨.keyword word, l⟩
  · obtain ⟨word, l, hhead⟩ := hkeyword
    refine .of_head hhead ?_
    cases word with
    | letWord =>
      rw [body_of_letWord hhead] at hrun
      exact declaration_viable l hrun
    | functionWord =>
      rw [body_of_functionWord hhead] at hrun
      exact function_viable l hrun
    | externWord =>
      rw [body_of_externWord hhead] at hrun
      exact (signature_viable (of_bind_pure_eq_error hrun)).mono fun ws => .prototype
  · rw [body_of_not_keyword fun word l hhead => hkeyword ⟨word, l, hhead⟩] at hrun
    exact (expression_viable_outermost hrun).mono fun ws => .expression

/-- A statement can be completed wherever an entry was not expected in it or behind it. -/
theorem statement_viable : statement.Viable IsStatement := by
  intro s u found _ hrun
  rcases bind_eq_error_iff.1 hrun with hbody | ⟨node, t, hbody, hrun⟩
  · exact body_viable hbody
  · -- the statement is complete already, and only something else may not follow it
    obtain ⟨st, hst, hspans, -⟩ := bracketed_of_body hbody
    obtain rfl : u = t := by
      have hend := of_bind_pure_eq_error hrun
      cases ht : t.head.endsStatement with
      | true =>
        rw [terminator_of_endsStatement ht] at hend
        cases hend
      | false =>
        rw [terminator_of_not_endsStatement ht] at hend
        cases hend
        rfl
    refine ⟨st.words, [], hspans, ?_⟩
    rw [List.append_nil]
    exact isStatement_iff.2 ⟨st, hst, rfl⟩

/-- A stream that has the words of a statement, and no others, is read to its end. -/
theorem statement_of_lexemes {s : TokenStream} (h : IsStatement s.lexemes) :
    ∃ node, statement s = .ok node ⟨[], s.stop⟩ := by
  obtain ⟨hafter, hwords⟩ :=
    eq_afterSentence_of_spans s.spans_lexemes h.semicolon_notMem rfl
  rw [hwords] at h
  obtain ⟨node, hrun⟩ := statement_eq_ok h
  rw [← hafter] at hrun
  exact ⟨node, hrun⟩

end Grammar

/-! ### Lines -/

namespace LineReader

open Grammar

/-- `r.FailsEarliest e after`: if the reader `r` fails to read a statement, with the error `e`, and
leaves `after` behind, then it has failed as early as possible. -/
structure FailsEarliest (r : LineReader) (e : ParseError) (after : LineReader) : Prop where
  /-- The reader has moved on in its line, or not moved. -/
  line_eq : after.tape.line = r.tape.line
  position_le : r.tape.position ≤ after.tape.position
  /-- The error is about the entry that the reader has stopped in front of, and is located there. -/
  blames : e.Blames after.tape.current
  location_eq : e.location = after.tape.current.location
  /-- Nothing behind that entry has been looked at: any reader that has the same entries up to and
  with that one fails in the same way, as far behind its own position. -/
  same : ∀ other : LineReader,
    (∀ k ≤ after.tape.position - r.tape.position, other.tape.peek k = r.tape.peek k) →
    ∃ after' : LineReader, other.readStatement = (.error e, after') ∧
      after'.tape.line = other.tape.line ∧
      after'.tape.position = other.tape.position + (after.tape.position - r.tape.position)
  /-- What is in front of that entry can be gone on with, unless there is no level of nesting left:
  with some more tokens behind it, it is all of a statement. -/
  viable : (∀ l, e ≠ .nestedTooDeeply l) →
    ∃ more : List Token, ∀ other : LineReader,
      other.tape.unread.tokens =
        r.tape.unread.tokens.take (after.tape.position - r.tape.position) ++ more →
      ∃ (node : Node) (after' : LineReader), other.readStatement = (.ok node, after') ∧
        after'.atEnd = true

/-- **A statement that cannot be read fails at the earliest possible entry.**  From every position
of every line, the error is about the entry in front of which the reader stops; the entries up to
that one alone decide the error and where the reader stops; and, unless the error is that the limit
of nesting is exceeded, the tokens in front of that entry are the beginning of a statement that is
read. -/
theorem readStatement_failsEarliest {r after : LineReader} {e : ParseError}
    (h : r.readStatement = (.error e, after)) : r.FailsEarliest e after := by
  rw [readStatement] at h
  cases hrun : statement r.tape.unread with
  | ok node u =>
    rw [hrun] at h
    cases h
  | error e' u =>
    rw [hrun] at h
    cases h
    have hrest : u.IsRestOf r.tape.unread := statement_forward.of_error hrun
    have hcurrent : (r.seek u).tape.current = u.head := TokenTape.current_seek hrest
    have hblames : e.Blames (r.seek u).tape.current := by
      rw [hcurrent]
      exact Parser.BlamesNext.compositional.statement hrun
    obtain ⟨hstop, ts, htokens⟩ := hrest
    have hmoved : (r.seek u).tape.position = r.tape.position + ts.length :=
      TokenTape.position_seek htokens.symm
    have hread : (r.seek u).tape.position - r.tape.position = ts.length := by omega
    refine ⟨rfl, by omega, hblames, hblames.location_eq, ?_, ?_⟩
    · intro other hsame
      have hentries : ∀ k ≤ ts.length,
          other.tape.unread.entries[k]? = r.tape.unread.entries[k]? := by
        intro k hk
        rw [← TokenTape.peek_eq, ← TokenTape.peek_eq]
        exact hsame k (hread.symm ▸ hk)
      obtain ⟨u', hshares⟩ := TokenStream.exists_shares htokens.symm hstop.symm hentries
      have hrun' := Parser.LooksNoFurther.compositional.statement.of_error hrun hshares
      refine ⟨other.seek u', readStatement_of_error hrun', rfl, ?_⟩
      obtain ⟨-, -, -, ts', hts, hts'⟩ := hshares
      obtain rfl : ts = ts' := List.append_cancel_right (htokens.trans hts)
      rw [hread]
      exact TokenTape.position_seek hts'
    · intro hlevels
      -- the error is not that of a missing level, so it is about an unexpected entry
      obtain ⟨ws, more, hspans, hstatement⟩ : r.tape.unread.Begins IsStatement u := by
        rw [hcurrent] at hblames
        cases hblames with
        | unexpected expected => exact statement_viable hrun
        | nestedTooDeeply => exact absurd rfl (hlevels _)
      refine ⟨more.map fun w => ⟨w, .start⟩, fun other hother => ?_⟩
      obtain ⟨-, ts', hts, rfl⟩ := TokenStream.spans_iff.1 hspans
      obtain rfl : ts = ts' := List.append_cancel_right (htokens.trans hts)
      have hlexemes : other.tape.unread.lexemes = ts.map Token.lexeme ++ more := by
        rw [TokenStream.lexemes, hother, hread, ← htokens, List.take_left', List.map_append,
          List.map_map]
        · exact congrArg (_ ++ ·) (List.map_id more)
        · rfl
      rw [← hlexemes] at hstatement
      obtain ⟨node, hrun'⟩ := statement_of_lexemes hstatement
      refine ⟨node, _, readStatement_of_ok hrun', ?_⟩
      exact TokenTape.atEnd_seek ⟨rfl, List.nil_suffix⟩

/-- A call that is not closed is found to be wrong at the end of the line, and nowhere before. -/
theorem readStatement_unclosed :
    ∃ (r after : LineReader) (e : ParseError), r.readStatement = (.error e, after) ∧
      e.describe = "Parse error at line 1, column 4: Expected ')' or ',' in argument list, " ++
        "found end of input" ∧
      after.tape.position = r.tape.position + 3 ∧ r.FailsEarliest e after := by
  let line : TokenStream := ⟨[⟨.identifier "f", ⟨1, 1⟩⟩, ⟨.operator "(", ⟨1, 2⟩⟩,
    ⟨.identifier "x", ⟨1, 3⟩⟩], ⟨1, 4⟩⟩
  let r : LineReader := .ofTape (.ofStream line)
  have hread : r.readStatement = (.error (.unexpected (.endOfInput ⟨1, 4⟩) .argumentEnd),
    ⟨⟨line, 3, Nat.le_refl 3⟩, []⟩) := rfl
  exact ⟨r, _, _, hread, by decide, rfl, readStatement_failsEarliest hread⟩

end LineReader

end Reckoner
