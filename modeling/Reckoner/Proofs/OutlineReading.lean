import Reckoner.Node.Outline
import Reckoner.Proofs.NumberText
import Reckoner.Proofs.Quotation

/-!
# Reading outlines back

An outline is written so that it can be read from the front.  A quotation ends where it says, a
number or a word in front of the comma behind it, and a block opens with a line of its own that
tells what is in it; so the items of a block can be read one after the other, each up to the comma
behind it.  Of a list that is not announced to have any length, the indentation tells whether there
is one more item: that of an item is deeper than that of the bracket that closes the list.

Therefore nothing that is quoted can pass for structure, and things that are written by the same
outlines are the same if their texts are, whatever stands behind them.

## Main definitions

* `Outline.Ends tail` — what stands behind an outline: a comma or nothing.
* `Outline.Determines outline a` — the text of the outline of `a` tells `a` and what is behind it.

## Main results

* `Outline.determines_quoted`, `determines_nat` — texts and natural numbers are determined.
* `Outline.Determines.field`, `Determines.item` — an item of a block is read off its front.
* `Outline.Determines.list` — lists are determined if their elements are.
-/

namespace Reckoner.Outline

/-- What stands behind an outline is a comma or nothing. -/
def Ends (tail : List Char) : Prop := ∀ c ∈ tail.head?, c = ','

theorem ends_nil : Ends [] := nofun

theorem ends_comma (tail : List Char) : Ends (',' :: tail) := by
  rintro c ⟨⟩
  rfl

variable {α : Type} {outline : α → Outline} {a a' : α} {depth : Nat} {tail tail' : List Char}

/-- The text of the outline of `a` tells `a` and what is behind it. -/
def Determines (outline : α → Outline) (a : α) : Prop :=
  ∀ ⦃a' : α⦄ ⦃depth : Nat⦄ ⦃tail tail' : List Char⦄, Ends tail → Ends tail' →
    (outline a).writeAt depth tail = (outline a').writeAt depth tail' → a = a' ∧ tail = tail'

/-! ### Atoms -/

/-- An atom in which there is no comma ends in front of the comma behind it. -/
theorem determines_atom {text : α → String} (hcomma : ∀ a, ',' ∉ (text a).toList)
    (hinj : ∀ a', text a = text a' → a = a') : Determines (fun a => atom (text a)) a := by
  intro a' depth tail tail' htail htail' h
  have hkind : ∀ a, ∀ c ∈ (text a).toList, decide (c ≠ ',') = true := by
    intro a c hc
    refine decide_eq_true ?_
    rintro rfl
    exact hcomma a hc
  have hstop : ∀ {tail : List Char}, Ends tail → ∀ c, tail.head? = some c → decide (c ≠ ',') = false :=
    fun h c hc => decide_eq_false (not_not_intro (h c hc))
  obtain ⟨htext, hbehind⟩ := span_inj (hkind a) (hkind a') (hstop htail) (hstop htail') h
  exact ⟨hinj a' (String.toList_inj.1 htext), hbehind⟩

theorem determines_quoted (s : String) : Determines ofString s :=
  fun _ _ _ _ _ _ h => Text.quote_append_inj h

theorem comma_notMem_of_isDigit {cs : List Char} (h : ∀ c ∈ cs, c.isDigit = true) : ',' ∉ cs :=
  fun hmem => absurd (h ',' hmem) (by decide)

theorem determines_nat (n : Nat) : Determines ofNat n := by
  have htext : ∀ n : Nat, (toString n).toList = Nat.toDigits 10 n := fun n => Nat.toList_repr
  refine determines_atom (fun n => ?_) fun m h => ?_
  · rw [htext]
    exact comma_notMem_of_isDigit fun c hc => Nat.isDigit_of_mem_toDigits (by decide) (by decide) hc
  · have hdigits := congrArg String.toList h
    rw [htext, htext] at hdigits
    exact Decimal.toDigits_injective hdigits

/-! ### Blocks -/

/-- A block opens with a line of its own. -/
theorem block_inj {opening opening' closing closing' : String} {items items' : List Outline}
    (hopening : '\n' ∉ opening.toList) (hopening' : '\n' ∉ opening'.toList)
    (h : (block opening items closing).writeAt depth tail =
      (block opening' items' closing').writeAt depth tail') :
    opening = opening' ∧
      writeItems (depth + 1) items (indent depth ++ (closing.toList ++ tail)) =
        writeItems (depth + 1) items' (indent depth ++ (closing'.toList ++ tail')) := by
  have hkind : ∀ {s : String}, '\n' ∉ s.toList → ∀ c ∈ s.toList, decide (c ≠ '\n') = true := by
    intro s hs c hc
    refine decide_eq_true ?_
    rintro rfl
    exact hs hc
  obtain ⟨hopen, hitems⟩ := span_inj (hkind hopening) (hkind hopening') (by simp) (by simp) h
  exact ⟨String.toList_inj.1 hopen, (List.cons.inj hitems).2⟩

/-- What closes a block is behind its last item. -/
theorem closing_inj {closing : String}
    (h : writeItems (depth + 1) [] (indent depth ++ (closing.toList ++ tail)) =
      writeItems (depth + 1) [] (indent depth ++ (closing.toList ++ tail'))) : tail = tail' :=
  List.append_cancel_left (List.append_cancel_left h)

/-- An item is read off the front of a block. -/
theorem Determines.item (ha : Determines outline a) {items items' : List Outline}
    (h : writeItems depth (outline a :: items) tail = writeItems depth (outline a' :: items') tail') :
    a = a' ∧ writeItems depth items tail = writeItems depth items' tail' := by
  obtain ⟨hsame, hbehind⟩ := ha (ends_comma _) (ends_comma _) (List.append_cancel_left h)
  exact ⟨hsame, (List.cons.inj (List.cons.inj hbehind).2).2⟩

/-- An outline with a label in front tells what it does without. -/
theorem Determines.labelled (ha : Determines outline a) (label : String) :
    Determines (fun a => labelled label (outline a)) a := by
  intro a' depth tail tail' htail htail' h
  have hvalue := List.append_cancel_left h
  exact ha htail htail' (List.cons.inj (List.cons.inj hvalue).2).2

/-- A field is read off the front of a record. -/
theorem Determines.field (ha : Determines outline a) {label : String} {items items' : List Outline}
    (h : writeItems depth (.labelled label (outline a) :: items) tail =
      writeItems depth (.labelled label (outline a') :: items') tail') :
    a = a' ∧ writeItems depth items tail = writeItems depth items' tail' :=
  (ha.labelled label).item h

/-! ### Lists -/

/-- The indentation of an item is deeper than that of a closing bracket. -/
theorem indent_succ_ne (rest rest' : List Char) :
    indent (depth + 1) ++ rest ≠ indent depth ++ ']' :: rest' := by
  intro h
  have hmore : indent (depth + 1) = indent depth ++ List.replicate 4 ' ' := by
    rw [indent, indent, Nat.mul_succ, List.replicate_add]
  rw [hmore, List.append_assoc] at h
  cases List.append_cancel_left h

/-- The items of a list are determined, and where they end. -/
theorem items_inj {as bs : List α} (h : ∀ a ∈ as, Determines outline a)
    (hitems : writeItems (depth + 1) (as.map outline) (indent depth ++ ']' :: tail) =
      writeItems (depth + 1) (bs.map outline) (indent depth ++ ']' :: tail')) :
    as = bs ∧ tail = tail' := by
  induction as generalizing bs with
  | nil =>
    cases bs with
    | nil => exact ⟨rfl, (List.cons.inj (List.append_cancel_left hitems)).2⟩
    | cons b bs => exact absurd hitems.symm (indent_succ_ne _ _)
  | cons a as ih =>
    obtain ⟨ha, has⟩ := List.forall_mem_cons.1 h
    cases bs with
    | nil => exact absurd hitems (indent_succ_ne _ _)
    | cons b bs =>
      obtain ⟨rfl, hrest⟩ := ha.item hitems
      obtain ⟨rfl, hbehind⟩ := ih has hrest
      exact ⟨rfl, hbehind⟩

/-- Lists are determined if their elements are. -/
theorem Determines.list {as : List α} (h : ∀ a ∈ as, Determines outline a) :
    Determines (fun as : List α => .list (as.map outline)) as := by
  intro bs depth tail tail' _ _ hlist
  -- an empty list has its brackets on one line
  cases as with
  | nil =>
    cases bs with
    | nil => exact ⟨rfl, List.append_cancel_left hlist⟩
    | cons b bs => cases hlist
  | cons a as =>
    cases bs with
    | nil => cases hlist
    | cons b bs => exact items_inj h (block_inj (by decide) (by decide) hlist).2

end Reckoner.Outline
