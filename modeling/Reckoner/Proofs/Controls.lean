import Reckoner.Proofs.Framing
import Reckoner.Proofs.Quotation

/-!
# Control characters

No control character comes through that has not been entered.  Messages quote words as they are, but
a word has only characters of the line that it stands in; and the names in a tree are quoted with
every control character escaped, so that in the lines of a tree there is none at all, whatever the
names are.  Numbers, timings and the texts of the program itself have none.

Line feeds are left aside: in trees they end the lines.

## Main definitions

* `Outline.IsPlain` — no control character stands in the parts of an outline.

## Main results

* `Text.isPlain_quote` — no control character stands in a quotation, whatever is quoted.
* `Node.lacks_dump` — none but line feeds stands in the lines of a tree.
* `Session.lacks_of_mem_blocks` — none is shown for a line in which it does not stand.
-/

namespace Reckoner

open Text

/-! ### Dumps -/

namespace Text

theorem isPlain_of_isPrintable {c : Char} (h : isPrintable c = true) : 0x20 ≤ c.toNat := by
  by_contra hlow
  -- below the space everything is unprintable
  have hcontrol : unprintable.contains c = true := by
    rw [CharSet.contains, unprintable, CharSet.inside_cons_of_le _ (Nat.zero_le _),
      CharSet.inside_cons_of_lt _ (by omega)]
    rfl
  rw [isPrintable, hcontrol, Bool.not_true, Bool.or_false, decide_eq_true_iff] at h
  subst h
  exact hlow (by decide)

theorem isPlain_codePointEscape (c : Char) : IsPlain (String.ofList (codePointEscape c)) := by
  have hdigits : ∀ d < 16, 0x20 ≤ (Nat.digitChar d).toNat := by decide
  rw [codePointEscape, String.ofList_append, String.ofList_append, isPlain_append, isPlain_append]
  exact ⟨⟨by decide, isPlain_ofList.2 (@forall_mem_toDigits (0x20 ≤ ·.toNat) hdigits c.toNat)⟩,
    by decide⟩

/-- No control character stands in the form of a character between quotes. -/
theorem isPlain_escape (c : Char) : IsPlain (String.ofList (escape c)) := by
  unfold escape
  split
  · decide
  split
  · decide
  split
  · decide
  split
  · decide
  split
  · next h => rcases h with rfl | rfl <;> decide
  split
  · next h =>
    rw [showsAlone, Bool.and_eq_true, Bool.and_eq_true] at h
    exact isPlain_ofList.2 (List.forall_mem_singleton.2 (isPlain_of_isPrintable h.1.1))
  · exact isPlain_codePointEscape c

/-- No control character stands in a quotation, whatever is quoted. -/
theorem isPlain_quote (s : String) : IsPlain (quote s) := by
  have hinside : ∀ d ∈ escapeAll s.toList, 0x20 ≤ d.toNat := by
    intro d hd
    obtain ⟨c, -, hd⟩ := List.mem_flatMap.1 hd
    exact isPlain_ofList.1 (isPlain_escape c) d hd
  have hmark : 0x20 ≤ '"'.toNat := by decide
  exact isPlain_ofList.2 (List.forall_mem_cons.2
    ⟨hmark, List.forall_mem_append.2 ⟨hinside, List.forall_mem_singleton.2 hmark⟩⟩)

end Text

namespace Outline

/-- No control character stands in the parts of an outline. -/
inductive IsPlain : Outline → Prop
  | atom {text : String} : Text.IsPlain text → IsPlain (.atom text)
  | labelled {label : String} {value : Outline} : Text.IsPlain label → IsPlain value →
      IsPlain (.labelled label value)
  | block {opening closing : String} {items : List Outline} : Text.IsPlain opening →
      (∀ item ∈ items, IsPlain item) → Text.IsPlain closing → IsPlain (.block opening items closing)

variable {name : String} {items : List Outline}

theorem isPlain_tuple (hname : Text.IsPlain name) (hitems : ∀ item ∈ items, item.IsPlain) :
    (tuple name items).IsPlain :=
  .block (isPlain_append.2 ⟨hname, by decide⟩) hitems (by decide)

theorem isPlain_record {fields : List (String × Outline)} (hname : Text.IsPlain name)
    (hfields : ∀ f ∈ fields, Text.IsPlain f.1 ∧ f.2.IsPlain) : (record name fields).IsPlain := by
  refine .block (isPlain_append.2 ⟨hname, by decide⟩) ?_ (by decide)
  exact List.forall_mem_map.2 fun f hf => .labelled (hfields f hf).1 (hfields f hf).2

theorem isPlain_list (hitems : ∀ item ∈ items, item.IsPlain) : (list items).IsPlain := by
  cases items with
  | nil => exact .atom (by decide)
  | cons item items => exact .block (by decide) hitems (by decide)

theorem isPlain_ofNat (n : Nat) : (ofNat n).IsPlain := .atom (isPlain_toString n)

theorem isPlain_ofString (s : String) : (ofString s).IsPlain := .atom (isPlain_quote s)

theorem isPlain_ofFloat (x : Float) : (ofFloat x).IsPlain :=
  .atom (isPlain_write Decimal.Layout.allNumberChars_wholeTail_literal x)

/-! ### Lines of dumps -/

section Control

variable {c : Char} (hc : c.toNat < 0x20) (hfeed : c ≠ '\n')

include hc

theorem ne_of_control {d : Char} (hd : 0x20 ≤ d.toNat) : c ≠ d := by
  rintro rfl
  exact absurd hc (Nat.not_lt.2 hd)

theorem notMem_indent (depth : Nat) : c ∉ indent depth := by
  intro hmem
  exact ne_of_control hc (by decide) (List.eq_of_mem_replicate hmem)

include hfeed

/-- Items whose texts have no control character are written without any, but for line feeds. -/
theorem notMem_writeItems (hitems : ∀ item ∈ items, ∀ {depth : Nat} {tail : List Char}, c ∉ tail →
      c ∉ item.writeAt depth tail) {depth : Nat} {tail : List Char} (htail : c ∉ tail) :
    c ∉ writeItems depth items tail := by
  induction items with
  | nil => exact htail
  | cons item items ih =>
    obtain ⟨hitem, hrest⟩ := List.forall_mem_cons.1 hitems
    have hbehind : c ∉ ',' :: '\n' :: writeItems depth items tail := by
      simp only [List.mem_cons, not_or]
      exact ⟨ne_of_control hc (by decide), hfeed, ih hrest⟩
    exact List.not_mem_append (notMem_indent hc depth) (hitem hbehind)

/-- Of control characters, only line feeds stand in the text of a plain outline. -/
theorem IsPlain.notMem_writeAt {o : Outline} (h : o.IsPlain) {depth : Nat} {tail : List Char}
    (htail : c ∉ tail) : c ∉ o.writeAt depth tail := by
  induction h generalizing depth tail with
  | atom htext => exact List.not_mem_append (htext.lacks hc) htail
  | labelled hlabel _ ih =>
    refine List.not_mem_append (hlabel.lacks hc) ?_
    simp only [List.mem_cons, not_or]
    exact ⟨ne_of_control hc (by decide), ne_of_control hc (by decide), ih htail⟩
  | block hopening _ hclosing ih =>
    have hlast := List.not_mem_append (notMem_indent hc depth)
      (List.not_mem_append (hclosing.lacks hc) htail)
    refine List.not_mem_append (hopening.lacks hc) ?_
    rw [List.mem_cons, not_or]
    exact ⟨hfeed, notMem_writeItems hc hfeed ih hlast⟩

end Control

end Outline

theorem Location.isPlain_outline (l : Location) : l.outline.IsPlain := by
  refine Outline.isPlain_record (by decide) ?_
  simp only [List.forall_mem_cons]
  exact ⟨⟨by decide, Outline.isPlain_ofNat _⟩, ⟨by decide, Outline.isPlain_ofNat _⟩,
    List.forall_mem_nil _⟩

theorem Signature.isPlain_outline (s : Signature) : s.outline.IsPlain := by
  have hparams : (Outline.list (s.params.map .ofString)).IsPlain :=
    Outline.isPlain_list (List.forall_mem_map.2 fun param _ => Outline.isPlain_ofString param)
  refine Outline.isPlain_record (by decide) ?_
  simp only [List.forall_mem_cons]
  exact ⟨⟨by decide, Outline.isPlain_ofString _⟩, ⟨by decide, hparams⟩,
    ⟨by decide, s.location.isPlain_outline⟩, List.forall_mem_nil _⟩

namespace Node

open Outline

mutual

/-- Whatever the names in a tree are, its outline is plain. -/
theorem isPlain_outline (node : Node) : node.outline.IsPlain := by
  cases node with
  | number value l =>
    refine isPlain_tuple (by decide) ?_
    simp only [List.forall_mem_cons]
    exact ⟨isPlain_ofFloat value, l.isPlain_outline, List.forall_mem_nil _⟩
  | reference name l =>
    refine isPlain_tuple (by decide) ?_
    simp only [List.forall_mem_cons]
    exact ⟨isPlain_ofString name, l.isPlain_outline, List.forall_mem_nil _⟩
  | declaration name initial l =>
    refine isPlain_record (by decide) ?_
    simp only [List.forall_mem_cons]
    exact ⟨⟨by decide, isPlain_ofString name⟩, ⟨by decide, isPlain_outline initial⟩,
      ⟨by decide, l.isPlain_outline⟩, List.forall_mem_nil _⟩
  | assignment name value l =>
    refine isPlain_record (by decide) ?_
    simp only [List.forall_mem_cons]
    exact ⟨⟨by decide, isPlain_ofString name⟩, ⟨by decide, isPlain_outline value⟩,
      ⟨by decide, l.isPlain_outline⟩, List.forall_mem_nil _⟩
  | binary op left right l =>
    have hop : Text.IsPlain op.name := by cases op <;> decide
    refine isPlain_record (by decide) ?_
    simp only [List.forall_mem_cons]
    exact ⟨⟨by decide, .atom hop⟩, ⟨by decide, isPlain_outline left⟩,
      ⟨by decide, isPlain_outline right⟩, ⟨by decide, l.isPlain_outline⟩, List.forall_mem_nil _⟩
  | call callee args l =>
    refine isPlain_record (by decide) ?_
    simp only [List.forall_mem_cons]
    exact ⟨⟨by decide, isPlain_ofString callee⟩, ⟨by decide, isPlain_list (isPlain_outlines args)⟩,
      ⟨by decide, l.isPlain_outline⟩, List.forall_mem_nil _⟩
  | prototype signature =>
    exact isPlain_tuple (by decide) (List.forall_mem_singleton.2 signature.isPlain_outline)
  | function signature body l =>
    refine isPlain_record (by decide) ?_
    simp only [List.forall_mem_cons]
    exact ⟨⟨by decide, signature.isPlain_outline⟩, ⟨by decide, isPlain_outline body⟩,
      ⟨by decide, l.isPlain_outline⟩, List.forall_mem_nil _⟩

/-- So are those of the arguments of a call. -/
theorem isPlain_outlines (nodes : List Node) : ∀ o ∈ outlines nodes, o.IsPlain := by
  cases nodes with
  | nil => exact List.forall_mem_nil _
  | cons node nodes =>
    exact List.forall_mem_cons.2 ⟨isPlain_outline node, isPlain_outlines nodes⟩

end

/-- In the lines of a tree no control character stands, whatever the names in it are. -/
theorem lacks_dump (node : Node) {c : Char} (hc : c.toNat < 0x20) (hfeed : c ≠ '\n') :
    Lacks node.dump c :=
  lacks_ofList.2 (node.isPlain_outline.notMem_writeAt hc hfeed List.not_mem_nil)

end Node

/-! ### Lines -/

/-- What does not stand in a row stands in no word of it. -/
theorem Row.lacks_of_notMem {r : Row} {c : Char} (h : c ∉ r.chars) : r.Lacks c := by
  intro p hp hmem
  have hpiece : c ∈ p.chars := List.mem_append_right p.gap hmem
  exact h (List.mem_append_left r.tail (List.mem_flatMap.2 ⟨p, hp, hpiece⟩))

/-- Without its tree, an outcome is shown by the blocks behind it. -/
theorem Outcome.mem_blocks {outcome : Outcome} {tree timing coloured : Bool} {parseTime : Nat}
    {b : Block} (h : b ∈ outcome.blocks ⟨tree, timing, coloured⟩ parseTime) :
    (∃ statement : Node, b = ⟨.detail, statement.dump⟩) ∨
      b ∈ outcome.blocks ⟨false, timing, coloured⟩ parseTime := by
  cases tree with
  | false => exact .inr h
  | true =>
    cases outcome with
    | evaluated statement result =>
      rcases List.mem_cons.1 h with rfl | h
      · exact .inl ⟨statement, rfl⟩
      · exact .inr h
    | syntaxError e => exact .inr h

/-- No control character but line feeds is shown for a line in which it does not stand. -/
theorem Session.lacks_of_mem_blocks {session : Session} {line : String} {c : Char}
    (hline : Lacks line c) (hc : c.toNat < 0x20) (hfeed : c ≠ '\n') {outcome : Outcome}
    (houtcome : outcome ∈ (session.enter line).outcomes) {tree timing coloured : Bool}
    {parseTime : Nat} :
    ∀ b ∈ outcome.blocks ⟨tree, timing, coloured⟩ parseTime, Lacks b.text c := by
  intro b hb
  rcases Outcome.mem_blocks hb with ⟨statement, rfl⟩ | hb
  · exact statement.lacks_dump hc hfeed
  · obtain ⟨r, hwell, hchars⟩ := exists_row line.toList
    have hlacks : r.Lacks c := Row.lacks_of_notMem (hchars ▸ hline)
    exact (pointsInto_of_mem_outcomes hwell hchars houtcome).lacks hlacks hc rfl b hb

end Reckoner
