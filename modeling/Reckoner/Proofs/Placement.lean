import Reckoner.Evaluation.Evaluate
import Reckoner.Proofs.Statements

/-!
# Where trees come from

Every node of a tree that was read has the location of a word of the stream it was read from: that
of its own word, or of the first of the words it begins with.  Evaluation does not read the stream
any more, but all it can complain about is a node, and so its errors have such locations too.

Where words stand is said by a relation, so that what is found in a stream of tokens can be carried
over to wherever these tokens come from.

## Main definitions

* `Places` — where words stand, and next to which words.
* `TokenStream.places` — where the words of a stream stand.
* `Node.IsPlaced` — that the nodes of a tree have the locations of the words they were made from.
* `EvalError.PointsInto` — that an error has the location of the words that it is about.

## Main results

* `Grammar.isPlaced_of_expression`, `Grammar.isPlaced_of_body` — what is read is placed.
* `Node.IsPlaced.pointsInto` — the errors of a tree that is placed are about its words.
-/

namespace Reckoner

/-! ### Places -/

/-- Where words stand: `places before w after l` says that the word `w` stands at `l`, with the
words `before` directly in front of it and the words `after` directly behind it. -/
abbrev Places : Type := List Lexeme → Lexeme → List Lexeme → Location → Prop

/-- Where the words of a stream stand. -/
def TokenStream.places (s : TokenStream) : Places := fun before w after l =>
  ∃ t u v : TokenStream, t.IsRestOf s ∧ t.Spans before u ∧ u.head = .token ⟨w, l⟩ ∧
    u.tail.Spans after v

/-- What stands in a rest of a stream stands in the stream. -/
theorem TokenStream.IsRestOf.places {s t : TokenStream} (h : t.IsRestOf s)
    {before after : List Lexeme} {w : Lexeme} {l : Location} :
    t.places before w after l → s.places before w after l := by
  rintro ⟨u, v, x, hu, hspans⟩
  exact ⟨u, v, x, hu.trans h, hspans⟩

/-- What stands in a stream is one of its tokens. -/
theorem TokenStream.mem_of_places {s : TokenStream} {before after : List Lexeme} {w : Lexeme}
    {l : Location} : s.places before w after l → ⟨w, l⟩ ∈ s.tokens := by
  rintro ⟨t, u, v, ht, hbefore, hhead, -⟩
  have hu : u.IsRestOf s := hbefore.isRestOf.trans ht
  rw [eq_cons_of_head hhead] at hu
  exact hu.2.subset List.mem_cons_self

/-- The word that a signature begins with. -/
def Grammar.openingWord : Option String → Lexeme
  | some name => .identifier name
  | none => .operator "("

/-- The nodes of a tree have the locations of the words they were made from.  A name that is given
no value starts at a zero, which has the location of the name. -/
inductive Node.IsPlaced (places : Places) : Node → Prop
  | number {value : Float} {l : Location} : places [] (.number value) [] l →
      IsPlaced places (.number value l)
  | reference {name : String} {l : Location} : places [] (.identifier name) [] l →
      IsPlaced places (.reference name l)
  | declaration {name : String} {l l' : Location} :
      places [] (.keyword .letWord) [.identifier name] l →
      places [.keyword .letWord] (.identifier name) [] l' →
      IsPlaced places (.declaration name (.number 0 l') l)
  | initialized {name : String} {initial : Node} {l : Location} :
      places [] (.keyword .letWord) [.identifier name] l → IsPlaced places initial →
      IsPlaced places (.declaration name initial l)
  | assignment {name : String} {value : Node} {l : Location} :
      places [] (.identifier name) [] l → IsPlaced places value →
      IsPlaced places (.assignment name value l)
  | binary {op : BinaryOperator} {left right : Node} {l : Location} : IsPlaced places left →
      places [] (.operator op.text) [] l → IsPlaced places right →
      IsPlaced places (.binary op left right l)
  | call {callee : String} {args : List Node} {l : Location} :
      places [] (.identifier callee) [.operator "("] l → (∀ arg ∈ args, IsPlaced places arg) →
      IsPlaced places (.call callee args l)
  | prototype {name : Option String} {params : List String} {l : Location} :
      places [.keyword .externWord] (Grammar.openingWord name) [] l →
      IsPlaced places (.prototype ⟨name.getD "", params, l⟩)
  | function {name : Option String} {params : List String} {body : Node} {l l' : Location} :
      places [] (.keyword .functionWord) [Grammar.openingWord name] l →
      places [.keyword .functionWord] (Grammar.openingWord name) [] l' → IsPlaced places body →
      IsPlaced places (.function ⟨name.getD "", params, l'⟩ body l)

/-- A tree that is placed stays so wherever its words are found again. -/
theorem Node.IsPlaced.mono {p q : Places}
    (hpq : ∀ {before w after l}, p before w after l → q before w after l) {node : Node}
    (h : node.IsPlaced p) : node.IsPlaced q := by
  induction h with
  | number h => exact .number (hpq h)
  | reference h => exact .reference (hpq h)
  | declaration h h' => exact .declaration (hpq h) (hpq h')
  | initialized h _ ih => exact .initialized (hpq h) ih
  | assignment h _ ih => exact .assignment (hpq h) ih
  | binary _ h _ ihleft ihright => exact .binary ihleft (hpq h) ihright
  | call h _ ih => exact .call (hpq h) ih
  | prototype h => exact .prototype (hpq h)
  | function h h' _ ih => exact .function (hpq h) (hpq h') ih

/-! ### What is read is placed -/

namespace Grammar

open Reckoner.Parser

/-- A reader of nested expressions whose trees are placed in the stream. -/
def PlacesTrees (inner : Parser Node) : Prop :=
  ∀ {s u : TokenStream} {node : Node}, inner s = .ok node u → node.IsPlaced s.places

theorem ReadsOperand.isPlaced {inner : Parser Node} (hforward : inner.Forward)
    (hinner : PlacesTrees inner) {s u : TokenStream} {node : Node}
    (h : ReadsOperand inner s node u) : node.IsPlaced s.places := by
  have hrest : s.tail.tail.IsRestOf s := .trans (.tail s.tail) (.tail s)
  cases h with
  | number hhead => exact .number ⟨s, s, _, .refl s, rfl, hhead, rfl⟩
  | reference hhead => exact .reference ⟨s, s, _, .refl s, rfl, hhead, rfl⟩
  | call hhead hopen hargs =>
    refine .call ⟨s, s, _, .refl s, rfl, hhead, spans_operator hopen⟩ fun arg harg => ?_
    obtain ⟨v, w, hv, hread⟩ := exists_of_mem_listUntilClosed hforward hargs harg
    exact (hinner hread).mono (hv.trans hrest).places
  | assignment hhead hequals hvalue =>
    exact .assignment ⟨s, s, _, .refl s, rfl, hhead, rfl⟩ ((hinner hvalue).mono hrest.places)
  | parenthesized hhead hinside hclose =>
    exact (hinner hinside).mono (TokenStream.IsRestOf.tail s).places

/-- A climb gives a tree that is placed if its left side is. -/
theorem Climbs.isPlaced {inner : Parser Node} (hforward : inner.Forward)
    (hinner : PlacesTrees inner) {least : Nat} {left node : Node} {s u : TokenStream}
    (h : Climbs (operand inner) least left s node u) :
    ∀ {s₀ : TokenStream}, s.IsRestOf s₀ → left.IsPlaced s₀.places → node.IsPlaced s₀.places := by
  induction h with
  | stop _ => exact fun _ hleft => hleft
  | @step least left first right node s t u v op hop hle hfirst hright hclimb ihright ih =>
    intro s₀ hs hleft
    obtain ⟨l, hhead⟩ := binaryOperator?_eq_some_iff.1 hop
    have hoperand := operand_forward hforward
    have htail : s.tail.IsRestOf s₀ := .trans (.tail s) hs
    have ht := (hoperand.of_ok hfirst).trans htail
    have hplaced := ((readsOperand_of_operand hfirst).isPlaced hforward hinner).mono htail.places
    refine ih ((hright.isRestOf hoperand).trans ht) (.binary hleft ?_ (ihright ht hplaced))
    rw [hhead]
    exact hs.places ⟨s, s, s.tail, .refl s, rfl, hhead, rfl⟩

/-- What is read as an expression is placed. -/
theorem isPlaced_of_expression (levels : Nat) : PlacesTrees (expression levels) := by
  induction levels with
  | zero =>
    intro s u node hrun
    cases hrun
  | succ levels ih =>
    intro s u node hrun
    have hinner := expression_forward levels
    have hoperand := operand_forward hinner
    obtain ⟨left, v, hleft, hclimb⟩ := bind_eq_ok_iff.1 hrun
    exact (climbs_of_climb hoperand hclimb).isPlaced hinner ih (hoperand.of_ok hleft)
      ((readsOperand_of_operand hleft).isPlaced hinner ih)

/-- A signature begins with its name, or with a parenthesis. -/
theorem head_of_spans_signatureWords {s u : TokenStream} {name : Option String}
    {params : List String} (h : s.Spans (signatureWords name params) u) :
    s.head = .token ⟨openingWord name, s.head.location⟩ := by
  cases name with
  | none =>
    obtain ⟨l, hhead, -⟩ := h
    rw [hhead]
    rfl
  | some name =>
    obtain ⟨l, hhead, -⟩ := h
    rw [hhead]
    rfl

/-- What is read as a statement is placed. -/
theorem isPlaced_of_body : PlacesTrees body := by
  intro s u node hrun
  have htail : s.tail.IsRestOf s := .tail s
  cases readsBody_of_body hrun with
  | @declaration name l l' hlet hname =>
    exact .declaration ⟨s, s, _, .refl s, rfl, hlet, l', hname, rfl⟩
      ⟨s, s.tail, _, .refl s, ⟨l, hlet, rfl⟩, hname, rfl⟩
  | @initialized _ name initial l l' hlet hname hequals hinitial =>
    have hrest : s.tail.tail.tail.IsRestOf s := .trans (.tail _) (.trans (.tail _) htail)
    exact .initialized ⟨s, s, _, .refl s, rfl, hlet, l', hname, rfl⟩
      ((isPlaced_of_expression _ hinitial).mono hrest.places)
  | @function t _ name params inside l hfunction hsignature harrow hinside =>
    have hhead := head_of_spans_signatureWords hsignature
    have hrest : t.tail.IsRestOf s := .trans (.tail t) (hsignature.isRestOf.trans htail)
    exact .function ⟨s, s, _, .refl s, rfl, hfunction, _, hhead, rfl⟩
      ⟨s, s.tail, _, .refl s, ⟨l, hfunction, rfl⟩, hhead, rfl⟩
      ((isPlaced_of_expression _ hinside).mono hrest.places)
  | @prototype _ name params l hextern hsignature =>
    exact .prototype ⟨s, s.tail, _, .refl s, ⟨l, hextern, rfl⟩,
      head_of_spans_signatureWords hsignature, rfl⟩
  | expression hexpression => exact isPlaced_of_expression _ hexpression

/-- What is read as a statement is placed. -/
theorem isPlaced_of_statement : PlacesTrees statement := by
  intro s u node hrun
  obtain ⟨t, hbody, -⟩ := statement_eq_ok_iff.1 hrun
  exact isPlaced_of_body hbody

end Grammar

/-! ### What evaluation complains about -/

/-- An error has the location of the words that it is about. -/
def EvalError.PointsInto (places : Places) (e : EvalError) : Prop :=
  match e with
  | .undefinedVariable name _ => places [] (.identifier name) [] e.location
  | .duplicateDeclaration name _ => places [] (.keyword .letWord) [.identifier name] e.location
  | .notEvaluable (.call callee) _ =>
    e.subject = s!"Call to '{callee}'" ∧ places [] (.identifier callee) [.operator "("] e.location
  | .notEvaluable (.prototype name) _ =>
    e.subject = s!"Prototype '{name}'" ∧
      (name ≠ "" ∧ places [.keyword .externWord] (.identifier name) [] e.location ∨
        name = "" ∧ places [.keyword .externWord] (.operator "(") [] e.location)
  | .notEvaluable (.function name) _ =>
    e.subject = s!"Function '{name}'" ∧
        places [] (.keyword .functionWord) [.identifier name] e.location ∨
      e.subject = "Anonymous function" ∧
        places [] (.keyword .functionWord) [.operator "("] e.location

/-- If a tree that is placed has no value, then the reason has the location of the words that it is
about. -/
theorem Node.IsPlaced.pointsInto {places : Places}
    (hname : ∀ {before after l}, ¬ places before (.identifier "") after l) {node : Node}
    (h : node.IsPlaced places) {env : Environment} {e : EvalError}
    (hrun : (evaluate node env).outcome = .error e) : e.PointsInto places := by
  induction h generalizing env with
  | number hplace => cases hrun
  | @reference name l hplace =>
    rw [evaluate_reference] at hrun
    split at hrun
    · cases hrun
    · cases hrun
      exact hplace
  | declaration hlet hplace =>
    rw [evaluate_declaration, evaluate_number] at hrun
    dsimp only at hrun
    split at hrun
    · cases hrun
      exact hlet
    · cases hrun
  | initialized hlet _ ih =>
    rw [evaluate_declaration] at hrun
    split at hrun
    · next e' after events hinitial =>
      cases hrun
      exact ih (congrArg Evaluation.Result.outcome hinitial)
    · split at hrun
      · cases hrun
        exact hlet
      · cases hrun
  | assignment hplace _ ih =>
    rw [evaluate_assignment] at hrun
    split at hrun
    · split at hrun
      · next hvalue =>
        cases hrun
        exact ih (congrArg Evaluation.Result.outcome hvalue)
      · cases hrun
    · cases hrun
      exact hplace
  | binary _ _ _ ihleft ihright =>
    rw [evaluate_binary] at hrun
    split at hrun
    · next hleft =>
      cases hrun
      exact ihleft (congrArg Evaluation.Result.outcome hleft)
    · split at hrun
      · next hright =>
        cases hrun
        exact ihright (congrArg Evaluation.Result.outcome hright)
      · cases hrun
  | call hplace _ _ =>
    cases hrun
    exact ⟨rfl, hplace⟩
  | @prototype name params l hplace =>
    cases hrun
    refine ⟨rfl, ?_⟩
    cases name with
    | none => exact .inr ⟨rfl, hplace⟩
    | some name =>
      refine .inl ⟨?_, hplace⟩
      rintro rfl
      exact hname hplace
  | @function name params body l l' hfunction hplace _ _ =>
    cases hrun
    cases name with
    | none => exact .inr ⟨rfl, hfunction⟩
    | some name =>
      have hne : name ≠ "" := by
        rintro rfl
        exact hname hplace
      exact .inl ⟨if_neg hne, hfunction⟩

end Reckoner
