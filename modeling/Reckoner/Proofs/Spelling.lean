import Mathlib.Data.List.Forall2
import Reckoner.Proofs.Reading
import Reckoner.Source

/-!
# Spelling words

Every word can be written down, and what is written down is read as that word, if the character
behind it does not go on with it.  A blank goes on with nothing, and so do the line feeds and the
comments between words; but where two words cannot merge, nothing has to stand between them.

## Main definitions

* `Spells text w` — the characters `text` are a spelling of the word `w`.
* `goesOn text c` — a word that is spelled `text` does not end in front of `c`.
* `Trivia.IsGap gap` — the characters `gap` separate words and mean nothing.
* `SpellsAll cs ws` — the text `cs` is a row of spellings of the words `ws`, with gaps between them.

## Main results

* `Spells.readsBack` — a spelling is cut off as a whole and means its word.
* `SpellsAll.tokenize` — the words of a text are those that it is a spelling of.
-/

namespace Reckoner

/-! ### Kinds of characters -/

namespace Text

/-- The code points inside, range by range. -/
def CharSet.points : List Nat → List Nat
  | lower :: upper :: bounds => List.range' lower (upper - lower) ++ points bounds
  | _ => []

/-- In a set whose last range is closed, the points inside are those of the ranges. -/
theorem CharSet.mem_points_of_inside {bounds : List Nat} (heven : bounds.length % 2 = 0) {n : Nat}
    (h : inside bounds n = true) : n ∈ points bounds := by
  fun_induction points bounds with
  | case1 lower upper bounds ih =>
    by_cases hlower : n < lower
    · rw [inside_cons_of_lt _ hlower] at h
      cases h
    · rw [inside_cons_of_le _ (Nat.not_lt.1 hlower)] at h
      rw [List.mem_append, List.mem_range'_1]
      by_cases hupper : n < upper
      · left
        omega
      · rw [inside_cons_of_le _ (Nat.not_lt.1 hupper), Bool.not_not] at h
        right
        refine ih ?_ h
        simp only [List.length_cons] at heven
        omega
  | case2 bounds hshort =>
    match bounds with
    | [] => cases h
    | [_] => simp at heven
    | _ :: _ :: _ => exact absurd rfl (hshort _ _ _)

theorem isAlphabetic_eq_false_of_isBlank {c : Char} (h : isBlank c = true) : isAlphabetic c = false := by
  have hpoint : c.toNat ∈ CharSet.points blank.bounds := CharSet.mem_points_of_inside rfl h
  have hall : ∀ n ∈ CharSet.points blank.bounds, CharSet.inside alphabetic.bounds n = false := by
    decide +kernel
  exact hall _ hpoint

theorem isNumeric_eq_false_of_isBlank {c : Char} (h : isBlank c = true) : isNumeric c = false := by
  have hpoint : c.toNat ∈ CharSet.points blank.bounds := CharSet.mem_points_of_inside rfl h
  have hall : ∀ n ∈ CharSet.points blank.bounds, CharSet.inside numeric.bounds n = false := by
    decide +kernel
  exact hall _ hpoint

end Text

theorem isBlank_eq_false_of_startsWord {c : Char} (h : startsWord c = true) : Text.isBlank c = false := by
  rw [Bool.eq_false_iff]
  intro hblank
  rw [startsWord, Text.isAlphabetic_eq_false_of_isBlank hblank, Bool.false_or, decide_eq_true_eq] at h
  subst h
  cases hblank

theorem toNat_of_isDigit {c : Char} (h : c.isDigit = true) : 0x30 ≤ c.toNat ∧ c.toNat ≤ 0x39 := by
  rw [Char.isDigit, Bool.and_eq_true, decide_eq_true_eq, decide_eq_true_eq] at h
  exact h

theorem startsWord_eq_false_of_isDigit {c : Char} (h : c.isDigit = true) : startsWord c = false := by
  obtain ⟨hlower, hupper⟩ := toNat_of_isDigit h
  have halphabetic : Text.isAlphabetic c = false := Text.CharSet.inside_cons_of_lt _ (by omega)
  rw [startsWord, halphabetic, Bool.false_or, decide_eq_false_iff_not]
  rintro rfl
  cases h

theorem isBlank_eq_false_of_isDigit {c : Char} (h : c.isDigit = true) : Text.isBlank c = false := by
  obtain ⟨hlower, hupper⟩ := toNat_of_isDigit h
  rw [Bool.eq_false_iff]
  intro hblank
  have hpoint := Text.CharSet.mem_points_of_inside (n := c.toNat) rfl hblank
  have hall : ∀ n ∈ Text.CharSet.points Text.blank.bounds, n < 0x30 ∨ 0x39 < n := by
    decide +kernel
  rcases hall _ hpoint with hlt | hgt
  · omega
  · omega

/-! ### Spellings -/

/-- The characters form a word: a name or a keyword. -/
def IsWord (text : List Char) : Prop :=
  ∃ first more, text = first :: more ∧ startsWord first = true ∧
    ∀ c ∈ more, continuesWord c = true

/-- The characters form a number literal, if there are not too many points among them. -/
def IsNumeral (text : List Char) : Prop :=
  ∃ first more, text = first :: more ∧ first.isDigit = true ∧
    ∀ c ∈ more, continuesNumeral c = true

/-- Whether a character stands for itself: it is not passed over, and does not begin a comment, a
word, a number or one of the operators that begin with an equals sign. -/
def isMark (c : Char) : Bool :=
  !Text.isBlank c && c ≠ '#' && !startsWord c && !c.isDigit && c ≠ '='

/-- `Spells text w`: the characters `text` are a spelling of the word `w`. -/
inductive Spells : List Char → Lexeme → Prop
  | identifier {text : List Char} : IsWord text → Keyword.ofText? (String.ofList text) = none →
      Spells text (.identifier (String.ofList text))
  | keyword (word : Keyword) : Spells word.text.toList (.keyword word)
  | number {text : List Char} {value : Float} : IsNumeral text →
      Numeral.read? text = some value → Spells text (.number value)
  | equals : Spells ['='] (.operator "=")
  | doubleEquals : Spells ['=', '='] (.operator "==")
  | arrow : Spells ['=', '>'] (.operator "=>")
  | mark {c : Char} : isMark c = true → Spells [c] (.operator (String.singleton c))

/-- Whether a word that is spelled `text` does not end in front of the character `c`. -/
def goesOn (text : List Char) (c : Char) : Bool :=
  match text with
  | [] => false
  | first :: more =>
    if startsWord first then continuesWord c
    else if first.isDigit then continuesNumeral c
    else first = '=' && more.isEmpty && (c = '=' || c = '>')

/-- No word goes on with a blank. -/
theorem goesOn_of_isBlank {c : Char} (h : Text.isBlank c = true) (text : List Char) :
    goesOn text c = false := by
  have hmark : c ≠ '_' ∧ c ≠ '.' ∧ c ≠ '=' ∧ c ≠ '>' := by
    refine ⟨?_, ?_, ?_, ?_⟩ <;>
      · rintro rfl
        cases h
  have hdigit : c.isDigit = false := by
    rw [Bool.eq_false_iff]
    intro hdigit
    rw [isBlank_eq_false_of_isDigit hdigit] at h
    cases h
  have hword : continuesWord c = false := by
    simp [continuesWord, Text.isAlphabetic_eq_false_of_isBlank h,
      Text.isNumeric_eq_false_of_isBlank h, hmark.1]
  have hnumeral : continuesNumeral c = false := by simp [continuesNumeral, hdigit, hmark.2.1]
  cases text with
  | nil => rfl
  | cons first more => simp [goesOn, hword, hnumeral, hmark.2.2.1, hmark.2.2.2]

/-- No word goes on with the beginning of a comment. -/
theorem goesOn_numberSign (text : List Char) : goesOn text '#' = false := by
  have hword : continuesWord '#' = false := rfl
  have hnumeral : continuesNumeral '#' = false := rfl
  cases text with
  | nil => rfl
  | cons first more => simp [goesOn, hword, hnumeral]

theorem isWord_keyword (word : Keyword) : IsWord word.text.toList := by
  cases word with
  | letWord => exact ⟨'l', ['e', 't'], rfl, rfl, List.all_eq_true.1 rfl⟩
  | functionWord =>
    exact ⟨'f', ['u', 'n', 'c', 't', 'i', 'o', 'n'], rfl, rfl, List.all_eq_true.1 rfl⟩
  | externWord => exact ⟨'e', ['x', 't', 'e', 'r', 'n'], rfl, rfl, List.all_eq_true.1 rfl⟩

/-- A run that goes on to the end of a spelling and not beyond it. -/
theorem span_of_stop {p : Char → Bool} {more rest : List Char} (hmore : ∀ c ∈ more, p c = true)
    (hrest : ∀ c, rest.head? = some c → p c = false) :
    (more ++ rest).takeWhile p = more ∧ (more ++ rest).dropWhile p = rest := by
  rw [List.takeWhile_append_of_pos hmore, List.dropWhile_append_of_pos hmore]
  cases rest with
  | nil => exact ⟨List.append_nil more, rfl⟩
  | cons c rest =>
    have hstop : p c = false := hrest c rfl
    rw [List.takeWhile_cons_of_neg (by simp [hstop]), List.dropWhile_cons_of_neg (by simp [hstop])]
    exact ⟨List.append_nil more, rfl⟩

/-- A run of characters of one kind is told from what is behind it by that. -/
theorem span_inj {p : Char → Bool} {cs ds rest rest' : List Char} (hcs : ∀ c ∈ cs, p c = true)
    (hds : ∀ c ∈ ds, p c = true) (hrest : ∀ c, rest.head? = some c → p c = false)
    (hrest' : ∀ c, rest'.head? = some c → p c = false) (h : cs ++ rest = ds ++ rest') :
    cs = ds ∧ rest = rest' := by
  obtain ⟨htake, hdrop⟩ := span_of_stop hcs hrest
  obtain ⟨htake', hdrop'⟩ := span_of_stop hds hrest'
  exact ⟨htake.symm.trans (h ▸ htake'), hdrop.symm.trans (h ▸ hdrop')⟩

/-- What is known about a spelling when it is read: its first character is not passed over, it is
cut off as a whole, and it means the word. -/
structure ReadsBack (text rest : List Char) (w : Lexeme) (first : Char) (more : List Char) :
    Prop where
  eq_cons : text = first :: more
  not_blank : Text.isBlank first = false
  not_numberSign : first ≠ '#'
  munch_eq : Lexeme.munch first (more ++ rest) = (text, rest)
  ofText?_eq : Lexeme.ofText? first text = some w

theorem IsWord.readsBack {text rest : List Char} (h : IsWord text)
    (hrest : ∀ c, rest.head? = some c → goesOn text c = false) :
    ∃ first more, ReadsBack text rest (match Keyword.ofText? (String.ofList text) with
      | some word => .keyword word
      | none => .identifier (String.ofList text)) first more := by
  obtain ⟨first, more, rfl, hfirst, hmore⟩ := h
  have hstop : ∀ c, rest.head? = some c → continuesWord c = false := by
    intro c hc
    have hends := hrest c hc
    rwa [goesOn, if_pos hfirst] at hends
  obtain ⟨htake, hdrop⟩ := span_of_stop hmore hstop
  refine ⟨first, more, rfl, isBlank_eq_false_of_startsWord hfirst, ?_, ?_, ?_⟩
  · rintro rfl
    cases hfirst
  · unfold Lexeme.munch
    rw [if_pos hfirst, htake, hdrop]
  · unfold Lexeme.ofText?
    exact if_pos hfirst

/-- A number literal is cut off as a whole if what is behind it does not go on with it. -/
theorem munch_of_isDigit {first : Char} {more rest : List Char} (hfirst : first.isDigit = true)
    (hmore : ∀ c ∈ more, continuesNumeral c = true)
    (hrest : ∀ c, rest.head? = some c → goesOn (first :: more) c = false) :
    Lexeme.munch first (more ++ rest) = (first :: more, rest) := by
  have hword : ¬ startsWord first = true := Bool.eq_false_iff.1 (startsWord_eq_false_of_isDigit hfirst)
  have hstop : ∀ c, rest.head? = some c → continuesNumeral c = false := by
    intro c hc
    have hends := hrest c hc
    rwa [goesOn, if_neg hword, if_pos hfirst] at hends
  obtain ⟨htake, hdrop⟩ := span_of_stop hmore hstop
  unfold Lexeme.munch
  rw [if_neg hword, if_pos hfirst, htake, hdrop]

/-- A number literal means what its digits spell, if they spell anything. -/
theorem ofText?_of_isDigit {first : Char} (hfirst : first.isDigit = true) (text : List Char) :
    Lexeme.ofText? first text = (Numeral.read? text).map .number := by
  rw [Lexeme.ofText?, if_neg (Bool.eq_false_iff.1 (startsWord_eq_false_of_isDigit hfirst)),
    if_pos hfirst]

theorem ne_numberSign_of_isDigit {c : Char} (h : c.isDigit = true) : c ≠ '#' := by
  rintro rfl
  cases h

theorem IsNumeral.readsBack {text rest : List Char} {value : Float} (h : IsNumeral text)
    (hvalue : Numeral.read? text = some value)
    (hrest : ∀ c, rest.head? = some c → goesOn text c = false) :
    ∃ first more, ReadsBack text rest (.number value) first more := by
  obtain ⟨first, more, rfl, hfirst, hmore⟩ := h
  refine ⟨first, more, rfl, isBlank_eq_false_of_isDigit hfirst, ne_numberSign_of_isDigit hfirst,
    munch_of_isDigit hfirst hmore hrest, ?_⟩
  rw [ofText?_of_isDigit hfirst, hvalue]
  rfl

/-- A spelling is cut off as a whole and means its word, if what is behind it does not go on with
it. -/
theorem Spells.readsBack {text rest : List Char} {w : Lexeme} (h : Spells text w)
    (hrest : ∀ c, rest.head? = some c → goesOn text c = false) :
    ∃ first more, ReadsBack text rest w first more := by
  cases h with
  | identifier hword hname =>
    have hread := hword.readsBack hrest
    rwa [hname] at hread
  | keyword word =>
    have hread := (isWord_keyword word).readsBack hrest
    rwa [String.ofList_toList, Keyword.ofText?_text] at hread
  | number hnumeral hvalue => exact hnumeral.readsBack hvalue hrest
  | equals =>
    refine ⟨'=', [], rfl, rfl, by decide, ?_, rfl⟩
    cases rest with
    | nil => rfl
    | cons c rest =>
      -- only an equals sign or a greater sign would be taken along
      have hends : goesOn ['='] c = false := hrest c rfl
      have hother : c ≠ '=' ∧ c ≠ '>' := by
        constructor
        · rintro rfl
          cases hends
        · rintro rfl
          cases hends
      have hsign : startsWord '=' = false := rfl
      have hdigit : Char.isDigit '=' = false := rfl
      simp [Lexeme.munch, hsign, hdigit, hother.1, hother.2]
  | doubleEquals => exact ⟨'=', ['='], rfl, rfl, by decide, rfl, rfl⟩
  | arrow => exact ⟨'=', ['>'], rfl, rfl, by decide, rfl, rfl⟩
  | @mark c hmark =>
    simp only [isMark, Bool.and_eq_true, Bool.not_eq_true', decide_eq_true_eq] at hmark
    obtain ⟨⟨⟨⟨hblank, hnumberSign⟩, hword⟩, hdigit⟩, hequals⟩ := hmark
    have hword' : ¬ startsWord c = true := Bool.eq_false_iff.1 hword
    have hdigit' : ¬ c.isDigit = true := Bool.eq_false_iff.1 hdigit
    refine ⟨c, [], rfl, hblank, hnumberSign, ?_, ?_⟩
    · unfold Lexeme.munch
      rw [if_neg hword', if_neg hdigit']
      split
      · exact absurd rfl hequals
      · exact absurd rfl hequals
      · rfl
    · unfold Lexeme.ofText?
      rw [if_neg hword', if_neg hdigit']
      rfl

/-! ### Gaps -/

namespace Trivia

/-- `IsGap gap`: wherever trivia may stand, the characters `gap` are passed over as a whole. -/
def IsGap (gap : List Char) : Prop :=
  ∀ cs, split false (gap ++ cs) = (gap ++ (split false cs).1, (split false cs).2)

theorem isGap_nil : IsGap [] := fun _ => rfl

theorem isGap_blank {c : Char} (h : Text.isBlank c = true) : IsGap [c] := split_blank h

end Trivia

/-- A word behind a gap is what is read next. -/
theorem Source.next_of_spells {gap text rest : List Char} {w : Lexeme} (hgap : Trivia.IsGap gap)
    (h : Spells text w) (hrest : ∀ c, rest.head? = some c → goesOn text c = false)
    (l : Location) :
    (Source.mk (gap ++ (text ++ rest)) l).next =
      (.ok (.token ⟨w, l.advance gap⟩), ⟨rest, (l.advance gap).advance text⟩) := by
  obtain ⟨first, more, hread⟩ := h.readsBack hrest
  have hsplit : Trivia.split false (gap ++ (text ++ rest)) = (gap, first :: (more ++ rest)) := by
    rw [hgap, hread.eq_cons, List.cons_append,
      Trivia.split_of_ne hread.not_blank hread.not_numberSign, List.append_nil]
  unfold Source.next
  simp only [hsplit, hread.munch_eq, hread.ofText?_eq]

/-! ### Rows of spellings -/

/-- `SpellsAll cs ws`: the text `cs` is a row of spellings of the words `ws`, with gaps between
them, and none of them goes on with what is behind it. -/
inductive SpellsAll : List Char → List Lexeme → Prop
  | nil {gap : List Char} : (Trivia.split false gap).2 = [] → SpellsAll gap []
  | cons {gap text rest : List Char} {w : Lexeme} {ws : List Lexeme} : Trivia.IsGap gap →
      Spells text w → (∀ c, rest.head? = some c → goesOn text c = false) → SpellsAll rest ws →
      SpellsAll (gap ++ (text ++ rest)) (w :: ws)

/-- The words of a text are those that it is a spelling of. -/
theorem SpellsAll.tokenize {cs : List Char} {ws : List Lexeme} (h : SpellsAll cs ws)
    (l : Location) : ∃ s, (Source.mk cs l).tokenize = .ok s ∧ s.lexemes = ws := by
  induction h generalizing l with
  | @nil gap hgap =>
    refine ⟨⟨[], l.advance (Trivia.split false gap).1⟩, ?_, rfl⟩
    rw [Source.tokenize_eq]
    unfold Source.next
    simp only [hgap]
  | @cons gap text rest w ws hgap hspells hrest _ ih =>
    obtain ⟨s, hs, hlexemes⟩ := ih ((l.advance gap).advance text)
    refine ⟨s.cons ⟨w, l.advance gap⟩, ?_, ?_⟩
    · rw [Source.tokenize_eq, Source.next_of_spells hgap hspells hrest]
      show (Source.tokenize _).map _ = _
      rw [hs]
      rfl
    · rw [← hlexemes]
      rfl

/-- Spellings with single spaces between them are a row of spellings. -/
theorem spellsAll_intercalate {texts : List String} {ws : List Lexeme}
    (h : List.Forall₂ (fun text w => Spells text.toList w) texts ws) :
    SpellsAll (" ".intercalate texts).toList ws := by
  -- the first spelling is at the front, and each of the others behind a space
  have hrow : ∀ {gap : List Char} {texts : List String} {ws : List Lexeme}, Trivia.IsGap gap →
      List.Forall₂ (fun text w => Spells text.toList w) texts ws → texts ≠ [] →
      SpellsAll (gap ++ (" ".intercalate texts).toList) ws := by
    intro gap texts ws hgap h hne
    induction h generalizing gap with
    | nil => exact absurd rfl hne
    | @cons text w texts ws htext htexts ih =>
      cases texts with
      | nil =>
        cases htexts
        have hlast : SpellsAll [] [] := .nil rfl
        rw [String.intercalate_singleton, ← List.append_nil text.toList]
        exact .cons hgap htext (fun c hc => absurd hc (by simp)) hlast
      | cons next texts =>
        have hrest := ih (Trivia.isGap_blank (c := ' ') rfl) (List.cons_ne_nil next texts)
        rw [String.intercalate_cons_cons, String.toList_append, String.toList_append,
          List.append_assoc]
        refine .cons hgap htext ?_ hrest
        intro c hc
        cases hc
        exact goesOn_of_isBlank rfl text.toList
  cases h with
  | nil => exact .nil rfl
  | cons htext htexts => exact hrow Trivia.isGap_nil (.cons htext htexts) (List.cons_ne_nil _ _)

end Reckoner
