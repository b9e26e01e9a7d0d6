import Reckoner.Proofs.Placement

/-!
# The tokens of a tree

A tree that was read has been made of the tokens between the front of the stream that it was read
from and what is left of it.  Each of these tokens has a part in the tree, and each node has its
location from one of them: a number and a name from themselves, an operation from its operator, a
declaration and a function from their keyword, and a signature from the token it begins with.  A
name that is given no value starts at a zero, which has the location of the name.

How a tree was bracketed decides which operator is below which, but not which token has been used
for what; so the relation says nothing about how tightly operators bind.

## Main definitions

* `Grammar.Reading`, `Grammar.Yields` — what an expression is read as, and the tokens that it is
  made of.
* `Signature.Yields`, `Node.Yields` — the tokens that a signature and a statement are made of.

## Main results

* `Grammar.yields_of_expression`, `Grammar.yields_of_statement` — what is read is made of the tokens
  that were used up.
-/

namespace Reckoner

/-! ### What trees are made of -/

namespace Grammar

/-- What the two kinds of phrases that contain each other are read as. -/
inductive Reading where
  /-- The tree of an expression. -/
  | tree (node : Node)
  /-- The trees of the arguments of a call. -/
  | arguments (nodes : List Node)

/-- `Yields reading ts`: the reading is made of the tokens `ts`, all of them and in that order.  The
tokens of arguments include the parenthesis that closes them. -/
inductive Yields : Reading → List Token → Prop
  | number {value : Float} {l : Location} :
      Yields (.tree (.number value l)) [⟨.number value, l⟩]
  | reference {name : String} {l : Location} :
      Yields (.tree (.reference name l)) [⟨.identifier name, l⟩]
  | parenthesized {node : Node} {ts : List Token} {l l' : Location} : Yields (.tree node) ts →
      Yields (.tree node) (⟨.operator "(", l⟩ :: (ts ++ [⟨.operator ")", l'⟩]))
  | assignment {name : String} {value : Node} {ts : List Token} {l l' : Location} :
      Yields (.tree value) ts → Yields (.tree (.assignment name value l))
        (⟨.identifier name, l⟩ :: ⟨.operator "=", l'⟩ :: ts)
  | binary {op : BinaryOperator} {left right : Node} {ts us : List Token} {l : Location} :
      Yields (.tree left) ts → Yields (.tree right) us →
      Yields (.tree (.binary op left right l)) (ts ++ ⟨.operator op.text, l⟩ :: us)
  | call {callee : String} {args : List Node} {ts : List Token} {l l' : Location} :
      Yields (.arguments args) ts → Yields (.tree (.call callee args l))
        (⟨.identifier callee, l⟩ :: ⟨.operator "(", l'⟩ :: ts)
  | noArgument {l : Location} : Yields (.arguments []) [⟨.operator ")", l⟩]
  | lastArgument {arg : Node} {ts : List Token} {l : Location} : Yields (.tree arg) ts →
      Yields (.arguments [arg]) (ts ++ [⟨.operator ")", l⟩])
  | moreArguments {arg next : Node} {args : List Node} {ts us : List Token} {l : Location} :
      Yields (.tree arg) ts → Yields (.arguments (next :: args)) us →
      Yields (.arguments (arg :: next :: args)) (ts ++ ⟨.operator ",", l⟩ :: us)

end Grammar

/-- The tokens of a signature are its words, and it has the location of the first. -/
structure Signature.Yields (signature : Signature) (ts : List Token) : Prop where
  words : ∃ name : Option String, signature.name = name.getD "" ∧
    ts.map Token.lexeme = Grammar.signatureWords name signature.params
  location : ts.head?.map Token.location = some signature.location

/-- `node.Yields ts`: the statement is made of the tokens `ts`, all of them and in that order. -/
inductive Node.Yields : Node → List Token → Prop
  | declaration {name : String} {l l' : Location} :
      Yields (.declaration name (.number 0 l') l) [⟨.keyword .letWord, l⟩, ⟨.identifier name, l'⟩]
  | initialized {name : String} {initial : Node} {ts : List Token} {l l' l'' : Location} :
      Grammar.Yields (.tree initial) ts → Yields (.declaration name initial l)
        (⟨.keyword .letWord, l⟩ :: ⟨.identifier name, l'⟩ :: ⟨.operator "=", l''⟩ :: ts)
  | function {signature : Signature} {body : Node} {ts us : List Token} {l l' : Location} :
      signature.Yields ts → Grammar.Yields (.tree body) us → Yields (.function signature body l)
        (⟨.keyword .functionWord, l⟩ :: (ts ++ ⟨.operator "=>", l'⟩ :: us))
  | prototype {signature : Signature} {ts : List Token} {l : Location} : signature.Yields ts →
      Yields (.prototype signature) (⟨.keyword .externWord, l⟩ :: ts)
  | expression {node : Node} {ts : List Token} : Grammar.Yields (.tree node) ts → Yields node ts

/-! ### What is used up -/

namespace TokenStream

variable {s t u : TokenStream} {ts us : List Token} {a : Token} {text : String}

/-- The tokens that are ahead of `s` and not of `t`, which is what is left, are `ts`. -/
def Uses (s : TokenStream) (ts : List Token) (t : TokenStream) : Prop := s.tokens = ts ++ t.tokens

theorem uses_nil (s : TokenStream) : s.Uses [] s := rfl

theorem Uses.append (h : s.Uses ts t) (h' : t.Uses us u) : s.Uses (ts ++ us) u := by
  unfold Uses at h h' ⊢
  rw [h, h', List.append_assoc]

theorem uses_head (h : s.head = .token a) : s.Uses [a] s.tail :=
  congrArg tokens (eq_cons_of_head h)

theorem Uses.cons (h : s.head = .token a) (h' : s.tail.Uses ts t) : s.Uses (a :: ts) t :=
  (uses_head h).append h'

/-- An operator that comes next is used up by going past it. -/
theorem exists_uses_of_isOperator (h : s.head.isOperator text = true) :
    ∃ l, s.Uses [⟨.operator text, l⟩] s.tail := by
  obtain ⟨l, hhead⟩ := Entry.isOperator_iff.1 h
  exact ⟨l, uses_head hhead⟩

theorem exists_uses_of_spans_operator (h : s.Spans [.operator text] t) :
    ∃ l, s.Uses [⟨.operator text, l⟩] t := by
  obtain ⟨l, hhead, rfl⟩ := spans_singleton.1 h
  exact ⟨l, uses_head hhead⟩

end TokenStream

/-! ### What is read -/

namespace Grammar

open Reckoner.Parser TokenStream

/-- A reader of expressions whose trees are made of the tokens that it uses up. -/
def YieldsTrees (inner : Parser Node) : Prop :=
  ∀ ⦃s u : TokenStream⦄ ⦃node : Node⦄, inner s = .ok node u →
    ∃ ts, s.Uses ts u ∧ Yields (.tree node) ts

section Expressions

variable {inner : Parser Node} {s u : TokenStream} {node : Node} (hinner : YieldsTrees inner)

include hinner

theorem yields_of_readsItems {args : List Node} (h : ReadsItems inner s args u) :
    ∃ ts, s.Uses ts u ∧ Yields (.arguments args) ts := by
  induction h with
  | @last s t u arg hfirst hclose =>
    obtain ⟨ts, huses, hyields⟩ := hinner hfirst
    obtain ⟨l, hclose⟩ := exists_uses_of_spans_operator hclose
    exact ⟨_, huses.append hclose, .lastArgument hyields⟩
  | @more s t u arg args hfirst hcomma hrest ih =>
    obtain ⟨ts, huses, hyields⟩ := hinner hfirst
    obtain ⟨l, hcomma⟩ := exists_uses_of_isOperator hcomma
    obtain ⟨us, hmore, hargs⟩ := ih
    -- behind a comma there is another argument
    cases args with
    | nil => cases hrest
    | cons next args =>
      exact ⟨_, huses.append (hcomma.append hmore), .moreArguments hyields hargs⟩

theorem yields_of_listUntilClosed {args : List Node}
    (h : listUntilClosed inner .argumentEnd s = .ok args u) :
    ∃ ts, s.Uses ts u ∧ Yields (.arguments args) ts := by
  rcases readsItems_of_listUntilClosed h with ⟨rfl, hclose⟩ | hitems
  · obtain ⟨l, hclose⟩ := exists_uses_of_spans_operator hclose
    exact ⟨_, hclose, .noArgument⟩
  · exact yields_of_readsItems hinner hitems

theorem ReadsOperand.yields (h : ReadsOperand inner s node u) :
    ∃ ts, s.Uses ts u ∧ Yields (.tree node) ts := by
  cases h with
  | number hhead => exact ⟨_, uses_head hhead, .number⟩
  | reference hhead _ _ => exact ⟨_, uses_head hhead, .reference⟩
  | call hhead hopen hargs =>
    obtain ⟨l, hopen⟩ := exists_uses_of_isOperator hopen
    obtain ⟨ts, huses, hyields⟩ := yields_of_listUntilClosed hinner hargs
    exact ⟨_, .cons hhead (hopen.append huses), .call hyields⟩
  | assignment hhead hequals hvalue =>
    obtain ⟨l, hequals⟩ := exists_uses_of_isOperator hequals
    obtain ⟨ts, huses, hyields⟩ := hinner hvalue
    exact ⟨_, .cons hhead (hequals.append huses), .assignment hyields⟩
  | parenthesized hhead hinside hclose =>
    obtain ⟨ts, huses, hyields⟩ := hinner hinside
    obtain ⟨l, hclose⟩ := exists_uses_of_spans_operator hclose
    exact ⟨_, .cons hhead (huses.append hclose), .parenthesized hyields⟩

/-- A climb adds the tokens that it uses up to those of its left side. -/
theorem Climbs.yields {least : Nat} {left : Node} (h : Climbs (operand inner) least left s node u)
    {ts : List Token} (hleft : Yields (.tree left) ts) :
    ∃ us, s.Uses us u ∧ Yields (.tree node) (ts ++ us) := by
  induction h generalizing ts with
  | @stop least left s _ => exact ⟨[], uses_nil s, by rwa [List.append_nil]⟩
  | @step least left first right node s t u v op hop _ hfirst _ _ ihright ih =>
    obtain ⟨l, hhead⟩ := binaryOperator?_eq_some_iff.1 hop
    obtain ⟨fs, hfs, hyields⟩ := (readsOperand_of_operand hfirst).yields hinner
    obtain ⟨rs, hrs, hright⟩ := ihright hyields
    -- the operation is made of its left side, the operator and its right side
    have hbinary : Yields (.tree (.binary op left right l))
        (ts ++ ⟨.operator op.text, l⟩ :: (fs ++ rs)) := .binary hleft hright
    have hplace : s.head.location = l := congrArg Entry.location hhead
    rw [← hplace] at hbinary
    obtain ⟨us, hus, hnode⟩ := ih hbinary
    rw [hplace] at hnode
    refine ⟨⟨.operator op.text, l⟩ :: (fs ++ (rs ++ us)),
      .cons hhead (hfs.append (hrs.append hus)), ?_⟩
    simpa only [List.append_assoc, List.cons_append] using hnode

end Expressions

/-- What is read as an expression is made of the tokens that were used up. -/
theorem yields_of_expression (levels : Nat) : YieldsTrees (expression levels) := by
  induction levels with
  | zero =>
    intro s u node hrun
    cases hrun
  | succ levels ih =>
    intro s u node hrun
    obtain ⟨left, t, hleft, hclimb⟩ := bind_eq_ok_iff.1 hrun
    obtain ⟨ts, hts, hyields⟩ := (readsOperand_of_operand hleft).yields ih
    have hclimbs := climbs_of_climb (operand_forward (expression_forward levels)) hclimb
    obtain ⟨us, hus, hnode⟩ := hclimbs.yields ih hyields
    exact ⟨ts ++ us, hts.append hus, hnode⟩

/-- A signature is made of the tokens that were used up. -/
theorem yields_of_spans_signatureWords {s u : TokenStream} {name : Option String}
    {params : List String} (h : s.Spans (signatureWords name params) u) :
    ∃ ts, s.Uses ts u ∧ Signature.Yields ⟨name.getD "", params, s.head.location⟩ ts := by
  have hhead := head_of_spans_signatureWords h
  obtain ⟨-, ts, huses, hwords⟩ := spans_iff.1 h
  refine ⟨ts, huses, ⟨name, rfl, hwords⟩, ?_⟩
  cases ts with
  | nil => cases name <;> cases hwords
  | cons a ts =>
    have htokens : s.tokens = _ := congrArg tokens (eq_cons_of_head hhead)
    rw [huses, List.cons_append] at htokens
    obtain ⟨rfl, -⟩ := List.cons.inj htokens
    rfl

/-- What is read as a statement, but for what ends it, is made of the tokens that were used up. -/
theorem yields_of_body {s u : TokenStream} {node : Node} (h : body s = .ok node u) :
    ∃ ts, s.Uses ts u ∧ node.Yields ts := by
  cases readsBody_of_body h with
  | declaration hlet hname => exact ⟨_, .cons hlet (uses_head hname), .declaration⟩
  | initialized hlet hname hequals hinitial =>
    obtain ⟨l, hequals⟩ := exists_uses_of_isOperator hequals
    obtain ⟨ts, huses, hyields⟩ := yields_of_expression _ hinitial
    exact ⟨_, .cons hlet (.cons hname (hequals.append huses)), .initialized hyields⟩
  | function hfunction hsignature harrow hinside =>
    obtain ⟨ts, hts, hsignature⟩ := yields_of_spans_signatureWords hsignature
    obtain ⟨l, harrow⟩ := exists_uses_of_isOperator harrow
    obtain ⟨us, hus, hyields⟩ := yields_of_expression _ hinside
    exact ⟨_, .cons hfunction (hts.append (harrow.append hus)), .function hsignature hyields⟩
  | prototype hextern hsignature =>
    obtain ⟨ts, hts, hsignature⟩ := yields_of_spans_signatureWords hsignature
    exact ⟨_, .cons hextern hts, .prototype hsignature⟩
  | expression hexpression =>
    obtain ⟨ts, huses, hyields⟩ := yields_of_expression _ hexpression
    exact ⟨ts, huses, .expression hyields⟩

/-- What ends a statement uses up a semicolon, or nothing at the end of the input. -/
theorem uses_of_endsStatement {s : TokenStream} (h : s.head.endsStatement = true) :
    ∃ stop, s.Uses stop s.tail ∧ (stop = [] ∨ ∃ l, stop = [⟨.operator ";", l⟩]) := by
  rw [Entry.endsStatement, Bool.or_eq_true] at h
  rcases h with hsemicolon | hend
  · obtain ⟨l, huses⟩ := exists_uses_of_isOperator hsemicolon
    exact ⟨_, huses, .inr ⟨l, rfl⟩⟩
  · obtain ⟨_ | ⟨a, tokens⟩, stop⟩ := s
    · exact ⟨[], uses_nil _, .inl rfl⟩
    · cases hend

/-- What is read as a statement is made of the tokens that were used up, but for the semicolon that
ends it. -/
theorem yields_of_statement {s u : TokenStream} {node : Node} (h : statement s = .ok node u) :
    ∃ ts stop, node.Yields ts ∧ (stop = [] ∨ ∃ l, stop = [⟨.operator ";", l⟩]) ∧
      s.Uses (ts ++ stop) u := by
  obtain ⟨t, hbody, hends, rfl⟩ := statement_eq_ok_iff.1 h
  obtain ⟨ts, huses, hyields⟩ := yields_of_body hbody
  obtain ⟨stop, hstop, hshape⟩ := uses_of_endsStatement hends
  exact ⟨ts, stop, hyields, hshape, huses.append hstop⟩

end Grammar

end Reckoner
