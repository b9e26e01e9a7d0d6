import Reckoner.Proofs.Spelling

/-!
# Separators

Between two words there may be blanks and comments.  A comment has the character that ends it with
it, but for one at the very end of a text, which nothing has to end.

## Main definitions

* `Trivia.IsSeparator atEnd gap` — the characters `gap` are blanks and comments.

## Main results

* `Trivia.IsSeparator.isGap` — a separator is passed over as a whole.
* `Trivia.isSeparator_split` — nothing but separators is passed over.
* `Trivia.IsSeparator.goesOn_eq_false` — no word goes on with a separator.
-/

namespace Reckoner.Trivia

/-- `IsSeparator atEnd gap`: the characters `gap` are blanks and comments, each comment with the
character that ends it.  At the end of a text, which `atEnd` says, the last comment may go on to the
end. -/
inductive IsSeparator (atEnd : Bool) : List Char → Prop
  | nil : IsSeparator atEnd []
  | blank {c : Char} {gap : List Char} : Text.isBlank c = true → IsSeparator atEnd gap →
      IsSeparator atEnd (c :: gap)
  | comment {body : List Char} {c : Char} {gap : List Char} :
      (∀ b ∈ body, endsComment b = false) → endsComment c = true → IsSeparator atEnd gap →
      IsSeparator atEnd ('#' :: (body ++ c :: gap))
  | lastComment {body : List Char} : atEnd = true → (∀ b ∈ body, endsComment b = false) →
      IsSeparator atEnd ('#' :: body)

variable {atEnd : Bool} {gap : List Char}

/-- A comment may have one more character in front. -/
theorem IsSeparator.comment_cons {c : Char} (hc : endsComment c = false)
    (h : IsSeparator atEnd ('#' :: gap)) : IsSeparator atEnd ('#' :: c :: gap) := by
  have hcons : ∀ {body : List Char}, (∀ b ∈ body, endsComment b = false) →
      ∀ b ∈ c :: body, endsComment b = false := fun hbody => List.forall_mem_cons.2 ⟨hc, hbody⟩
  cases h with
  | blank hblank => cases hblank
  | @comment body d gap hbody hend hgap =>
    exact @IsSeparator.comment atEnd (c :: body) d gap (hcons hbody) hend hgap
  | lastComment hatEnd hbody => exact .lastComment hatEnd (hcons hbody)

/-! ### Separators are passed over -/

/-- A comment is passed over up to the character that ends it. -/
theorem split_body {body : List Char} (hbody : ∀ b ∈ body, endsComment b = false) (cs : List Char) :
    split true (body ++ cs) = (body ++ (split true cs).1, (split true cs).2) := by
  induction body with
  | nil => rfl
  | cons b body ih =>
    rw [List.forall_mem_cons] at hbody
    rw [List.cons_append, split_comment, hbody.1, Bool.not_false, ih hbody.2]
    rfl

/-- A separator is passed over as a whole. -/
theorem IsSeparator.isGap (h : IsSeparator false gap) : IsGap gap := by
  intro cs
  induction h with
  | nil => rfl
  | blank hblank _ ih => rw [List.cons_append, split_blank hblank, ih]; rfl
  | comment hbody hend _ ih =>
    rw [List.cons_append, split_numberSign, List.append_assoc, split_body hbody, List.cons_append,
      split_comment, hend, Bool.not_true, ih]
    simp
  | lastComment hatEnd => cases hatEnd

/-- A separator at the end of a text is all that is there. -/
theorem IsSeparator.split_eq (h : IsSeparator true gap) : split false gap = (gap, []) := by
  induction h with
  | nil => rfl
  | blank hblank _ ih => rw [split_blank hblank, ih]
  | comment hbody hend _ ih =>
    rw [split_numberSign, split_body hbody, split_comment, hend, Bool.not_true, ih]
  | @lastComment body _ hbody =>
    have hall := split_body hbody []
    rw [List.append_nil, split_nil, List.append_nil] at hall
    rw [split_numberSign, hall]

/-- What is passed over is a separator, with the number sign in front if it begins inside a comment.
Only if nothing is left may it end with a comment that is not ended. -/
theorem isSeparator_split (inComment : Bool) (cs : List Char) :
    IsSeparator (split inComment cs).2.isEmpty
      (if inComment then '#' :: (split inComment cs).1 else (split inComment cs).1) := by
  fun_induction split inComment cs with
  | case1 inComment =>
    cases inComment with
    | true => exact .lastComment rfl (by simp)
    | false => exact .nil
  | case2 c cs trivia rest hsplit ih =>
    rw [hsplit] at ih
    cases hend : endsComment c with
    | true =>
      rw [hend] at ih
      exact @IsSeparator.comment _ [] c trivia (List.forall_mem_nil _) hend ih
    | false =>
      rw [hend] at ih
      exact ih.comment_cons hend
  | case3 c cs hblank trivia rest hsplit ih =>
    rw [hsplit] at ih
    exact .blank hblank ih
  | case4 cs trivia rest hsplit _ ih =>
    rw [hsplit] at ih
    exact ih
  | case5 => exact .nil

/-! ### Words do not go on with separators -/

theorem IsSeparator.head {c : Char} (h : IsSeparator atEnd (c :: gap)) :
    Text.isBlank c = true ∨ c = '#' := by
  cases h with
  | blank hblank => exact .inl hblank
  | comment => exact .inr rfl
  | lastComment => exact .inr rfl

/-- No word goes on with a separator. -/
theorem IsSeparator.goesOn_eq_false (h : IsSeparator atEnd gap) (text : List Char) {c : Char}
    (hc : gap.head? = some c) : goesOn text c = false := by
  obtain ⟨gap', rfl⟩ := List.head?_eq_some_iff.1 hc
  rcases h.head with hblank | rfl
  · exact goesOn_of_isBlank hblank text
  · exact goesOn_numberSign text

end Reckoner.Trivia
