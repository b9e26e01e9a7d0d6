import Reckoner.Proofs.Rendering

/-!
# The height of a tree

Whoever goes down a tree goes as deep as the tree is high.  The limit of nesting bounds how many
nodes on the way down are not operations: with all operations left out, no tree that is read is
higher than the limit, and one more for the statement around the expression.

It does not bound the height itself.  Operators in a row are read by a loop that uses up no level,
and each of them puts a node on top of what has been read; so a row of operators at the outermost
level is as high a tree as the row is long.

## Main definitions

* `Node.height`, `Node.nesting` — the number of nodes on the longest way down a tree, and that
  number if operations are not counted.
* `Node.operations` — the number of operations in a tree.

## Main results

* `Node.height_le` — a tree is no higher than it is nested, but for its operations.
* `LineReader.readStatement_height` — **what is read is nested within the limit, and no higher than
  the limit but for its operations.**
* `Script.exists_height` — trees of every height are read.
* `Script.height_unbounded` — no height bounds all trees that are read.
-/

namespace Reckoner

open Grammar

namespace Node

/-- The number of nodes on the way down from the root that has the most of them, if an operation
counts as `weight` nodes. -/
def heightBy (weight : Nat) : Node → Nat
  | number .. | reference .. | prototype _ => 1
  | declaration _ initial _ => initial.heightBy weight + 1
  | assignment _ value _ => value.heightBy weight + 1
  | binary _ left right _ => max (left.heightBy weight) (right.heightBy weight) + weight
  | call _ args _ => (args.map (heightBy weight)).foldr max 0 + 1
  | function _ body _ => body.heightBy weight + 1

/-- The number of nodes on the longest way down from the root. -/
def height (node : Node) : Nat := node.heightBy 1

/-- The number of nodes other than operations on a way down that has the most of these. -/
def nesting (node : Node) : Nat := node.heightBy 0

/-- The number of operations. -/
def operations : Node → Nat
  | number .. | reference .. | prototype _ => 0
  | declaration _ initial _ => initial.operations
  | assignment _ value _ => value.operations
  | binary _ left right _ => left.operations + right.operations + 1
  | call _ args _ => (args.map operations).foldr (· + ·) 0
  | function _ body _ => body.operations

theorem le_foldr_add {n : Nat} {ns : List Nat} (h : n ∈ ns) : n ≤ ns.foldr (· + ·) 0 := by
  induction h with
  | head ns => exact Nat.le_add_right _ _
  | tail m _ ih => exact Nat.le_trans ih (Nat.le_add_left _ _)

/-- A tree is no higher than it is nested, but for its operations. -/
theorem height_le (node : Node) : node.height ≤ node.nesting + node.operations := by
  unfold height nesting
  fun_induction heightBy 1 node with
  | case1 => simp [heightBy]
  | case2 => simp [heightBy]
  | case3 => simp [heightBy]
  | case4 name initial l ih =>
    rw [heightBy, operations]
    omega
  | case5 name value l ih =>
    rw [heightBy, operations]
    omega
  | case6 op left right l ihleft ihright =>
    rw [heightBy, operations]
    omega
  | case7 callee args l ih =>
    rw [heightBy, operations]
    have hargs : (args.map (heightBy 1)).foldr max 0 ≤
        (args.map (heightBy 0)).foldr max 0 + (args.map operations).foldr (· + ·) 0 := by
      refine foldr_max_le.2 (List.forall_mem_map.2 fun arg harg => ?_)
      have hnesting : arg.heightBy 0 ≤ (args.map (heightBy 0)).foldr max 0 :=
        foldr_max_le.1 (Nat.le_refl _) _ (List.mem_map_of_mem harg)
      have hoperations : arg.operations ≤ (args.map operations).foldr (· + ·) 0 :=
        le_foldr_add (List.mem_map_of_mem harg)
      have hheight := ih arg harg
      omega
    omega
  | case8 signature body l ih =>
    rw [heightBy, operations]
    omega

/-- Where the nodes of a tree stand is no matter to its height. -/
theorem heightBy_unplaced (weight : Nat) (node : Node) :
    node.unplaced.heightBy weight = node.heightBy weight := by
  fun_induction heightBy weight node with
  | case1 value l => rw [unplaced, heightBy]
  | case2 name l => rw [unplaced, heightBy]
  | case3 signature => rw [unplaced, heightBy]
  | case4 name initial l ih => rw [unplaced, heightBy, ih]
  | case5 name value l ih => rw [unplaced, heightBy, ih]
  | case6 op left right l ihleft ihright => rw [unplaced, heightBy, ihleft, ihright]
  | case7 callee args l ih =>
    rw [unplaced, heightBy, List.map_map]
    exact congrArg (fun ns : List Nat => ns.foldr max 0 + 1) (List.map_congr_left ih)
  | case8 signature body l ih => rw [unplaced, heightBy, ih]

end Node

/-! ### What the limit bounds -/

/-- An expression that is written with few levels is nested no deeper. -/
theorem Grammar.Bracketed.nesting_tree_le (t : Bracketed) : t.tree.nesting ≤ t.levels := by
  unfold Node.nesting
  fun_induction Bracketed.levels t with
  | case1 value => simp [Bracketed.tree, Node.heightBy]
  | case2 name => simp [Bracketed.tree, Node.heightBy]
  | case3 callee args ih =>
    rw [Bracketed.tree, Node.heightBy, List.map_map]
    refine Nat.succ_le_succ (foldr_max_le.2 (List.forall_mem_map.2 fun arg harg => ?_))
    exact Nat.le_trans (ih arg harg)
      (foldr_max_le.1 (Nat.le_refl _) _ (List.mem_map_of_mem harg))
  | case4 name value ih =>
    rw [Bracketed.tree, Node.heightBy]
    exact Nat.succ_le_succ ih
  | case5 op left right ihleft ihright =>
    rw [Bracketed.tree, Node.heightBy]
    omega
  | case6 inner ih =>
    rw [Bracketed.tree]
    exact Nat.le_succ_of_le ih

/-- The tree of a well written statement is nested within the limit, and one more for the statement
around its expression. -/
theorem Grammar.BracketedStatement.WellWritten.nesting_tree_le {st : BracketedStatement}
    (h : st.WellWritten) : st.tree.nesting ≤ maxNesting + 1 := by
  have hlevels : ∀ {t : Bracketed}, st.expression? = some t → t.tree.nesting ≤ maxNesting :=
    fun {t} ht => Nat.le_trans t.nesting_tree_le (h t ht).2
  cases st with
  | declaration name initial =>
    cases initial with
    | none => simp [BracketedStatement.tree, Node.nesting, Node.heightBy, maxNesting]
    | some t =>
      rw [BracketedStatement.tree, Node.nesting, Node.heightBy]
      exact Nat.succ_le_succ (hlevels rfl)
  | function name params t =>
    rw [BracketedStatement.tree, Node.nesting, Node.heightBy]
    exact Nat.succ_le_succ (hlevels rfl)
  | prototype name params =>
    simp [BracketedStatement.tree, Node.nesting, Node.heightBy, maxNesting]
  | expression t => exact Nat.le_succ_of_le (hlevels rfl)

/-- **What is read is nested within the limit, and no higher than the limit but for its
operations.**  On no way down a tree that is read are there more nodes other than operations than
the limit of nesting allows, and one for the statement; and the tree is at most as much higher than
that as it has operations. -/
theorem LineReader.readStatement_height (r : LineReader) :
    match r.readStatement with
    | (.ok node, _) =>
      node.nesting ≤ maxNesting + 1 ∧ node.height ≤ maxNesting + 1 + node.operations
    | (.error _, _) => True := by
  rw [readStatement]
  cases hrun : statement r.tape.unread with
  | error e u => trivial
  | ok node u =>
    obtain ⟨t, hbody, -⟩ := statement_eq_ok_iff.1 hrun
    obtain ⟨st, hst, -, htree⟩ := bracketed_of_body hbody
    have hnesting : node.nesting ≤ maxNesting + 1 := by
      rw [Node.nesting, ← node.heightBy_unplaced 0, htree]
      exact hst.nesting_tree_le
    exact ⟨hnesting, Nat.le_trans node.height_le (Nat.add_le_add_right hnesting _)⟩

/-! ### What it does not bound -/

/-- Spellings of the words of a well written statement, with blanks between them, are a script of
one statement, which has its tree. -/
theorem Script.ofString_of_spells {st : BracketedStatement} (hst : st.WellWritten)
    {texts : List String}
    (htexts : List.Forall₂ (fun text w => Spells text.toList w) texts st.words) :
    ∃ node, ofString (" ".intercalate texts) = ⟨[node], none⟩ ∧ node.unplaced = st.tree := by
  obtain ⟨s, htokens, hlexemes⟩ := (spellsAll_intercalate htexts).tokenize .start
  have hspans : s.Spans st.words ⟨[], s.stop⟩ := by
    rw [← hlexemes]
    exact s.spans_lexemes
  obtain ⟨node, hbody, htree⟩ := body_of_bracketed hst hspans (endsExpression_endOfInput s.stop)
  have hstatement : statement s = .ok node ⟨[], s.stop⟩ :=
    statement_eq_ok_iff.2 ⟨⟨[], s.stop⟩, hbody, rfl, rfl⟩
  have hopen : ¬ s.atEnd = true := by
    intro hend
    have hlt : 0 < s.tokens.length := statement_progressive hstatement
    rw [List.isEmpty_iff.1 hend] at hlt
    cases hlt
  have hread : (Script.read s).1 = ⟨[node], none⟩ := by
    rw [Script.read_eq, if_neg hopen, hstatement]
    dsimp only
    rw [Script.read_of_atEnd rfl]
    rfl
  exact ⟨node, (ofString_of_tokenize htokens).trans hread, htree⟩

/-- A name, and `n` times an operator and the name again. -/
def Grammar.Bracketed.chain : Nat → Bracketed
  | 0 => .reference "x"
  | n + 1 => .binary .add (chain n) (.reference "x")

namespace Grammar.Bracketed

/-- A chain needs no parentheses. -/
theorem chain_sufficient (n : Nat) : (chain n).Sufficient ∧ (chain n).isOpen = false ∧
    (chain n).BindsAtLeast BinaryOperator.add.precedence := by
  induction n with
  | zero => exact ⟨.reference "x", rfl, nofun⟩
  | succ n ih =>
    obtain ⟨hsufficient, hclosed, hbinds⟩ := ih
    refine ⟨.binary hsufficient (.reference "x") hclosed hbinds nofun, rfl, ?_⟩
    rintro op ⟨⟩
    exact Nat.le_refl _

/-- A chain stays on one level. -/
theorem levels_chain (n : Nat) : (chain n).levels = 1 := by
  induction n with
  | zero => rw [chain, levels]
  | succ n ih => rw [chain, levels, ih, levels]; rfl

/-- How a chain is spelled. -/
def chainTexts : Nat → List String
  | 0 => ["x"]
  | n + 1 => chainTexts n ++ ["+", "x"]

theorem spells_chain (n : Nat) :
    List.Forall₂ (fun text w => Spells text.toList w) (chainTexts n) (chain n).words := by
  have hname : Spells "x".toList (.identifier "x") := .identifier ⟨'x', [], rfl, rfl, by simp⟩ rfl
  have hplus : Spells "+".toList (.operator "+") := .mark (c := '+') rfl
  induction n with
  | zero =>
    rw [chain, words]
    exact .cons hname .nil
  | succ n ih =>
    rw [chain, words, words]
    exact List.rel_append ih (.cons hplus (.cons hname .nil))

theorem height_chain (n : Nat) : (chain n).tree.height = n + 1 := by
  unfold Node.height
  induction n with
  | zero => rw [chain, tree, Node.heightBy]
  | succ n ih =>
    rw [chain, tree, Node.heightBy, ih, tree, Node.heightBy]
    omega

end Grammar.Bracketed

/-- A line that spells a chain is read as it. -/
theorem Script.ofString_chain (n : Nat) : ∃ node,
    ofString (" ".intercalate (Bracketed.chainTexts n)) = ⟨[node], none⟩ ∧
      node.unplaced = (Bracketed.chain n).tree := by
  have hwritten : (BracketedStatement.expression (.chain n)).WellWritten := by
    rintro t ⟨⟩
    refine ⟨(Bracketed.chain_sufficient n).1, ?_⟩
    rw [Bracketed.levels_chain]
    decide
  exact ofString_of_spells hwritten (Bracketed.spells_chain n)

/-- Trees of every height are read, although they are nested within the limit. -/
theorem Script.exists_height (n : Nat) : ∃ (line : String) (node : Node),
    Script.ofString line = ⟨[node], none⟩ ∧ node.height = n + 1 := by
  obtain ⟨node, hline, htree⟩ := ofString_chain n
  refine ⟨_, node, hline, ?_⟩
  rw [Node.height, ← node.heightBy_unplaced 1, htree]
  exact Bracketed.height_chain n

/-- No height bounds all trees that are read from lines: the limit of nesting does not bound how
deep one goes who goes down a tree. -/
theorem Script.height_unbounded :
    ¬ ∃ bound, ∀ (line : String), ∀ node ∈ (Script.ofString line).statements,
      node.height ≤ bound := by
  rintro ⟨bound, hbound⟩
  obtain ⟨line, node, hline, hheight⟩ := exists_height bound
  have hle := hbound line node (by rw [hline]; exact List.mem_singleton_self node)
  omega

end Reckoner
