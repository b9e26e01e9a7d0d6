import Reckoner.Proofs.Spelling
import Reckoner.Text.Quoted

/-!
# Reading quotations back

A quotation ends at the first quotation mark that is not escaped, and its characters can be read
back one by one: an escape begins with a backslash, which nothing else does, and what follows tells
which character it stands for and where it ends.  So a quotation says which text it quotes, whatever
that text is and whatever stands behind the quotation.

## Main definitions

* `Text.ofHex cs` — the number that hexadecimal digits stand for.
* `Text.unescape cs` — the first character of the inside of a quotation, and what is behind it.

## Main results

* `Text.ofHex_toDigits` — a number is read back from its hexadecimal digits.
* `Text.unescape_escape` — a character is read back from its form between quotes.
* `Text.quote_append_inj` — a quotation is read back.
-/

namespace Reckoner.Text

/-- The number that a hexadecimal digit stands for. -/
def hexValue (c : Char) : Nat :=
  if c.isDigit then c.toNat - '0'.toNat else c.toNat - 'a'.toNat + 10

/-- The number that hexadecimal digits stand for. -/
def ofHex (cs : List Char) : Nat := cs.foldl (fun n c => 16 * n + hexValue c) 0

theorem hexValue_digitChar : ∀ d < 16, hexValue (Nat.digitChar d) = d := by decide

/-- A number is read back from its hexadecimal digits. -/
theorem ofHex_toDigits (n : Nat) : ofHex (Nat.toDigits 16 n) = n := by
  induction n using Nat.strongRecOn with
  | _ n ih =>
    by_cases hn : n < 16
    · rw [Nat.toDigits_of_lt_base hn, ofHex, List.foldl_cons, List.foldl_nil,
        hexValue_digitChar n hn]
      omega
    · have hdiv := ih (n / 16) (by omega)
      rw [Nat.toDigits_of_base_le (by decide) (Nat.not_lt.1 hn), ofHex, List.foldl_append]
      rw [ofHex] at hdiv
      rw [hdiv, List.foldl_cons, List.foldl_nil, hexValue_digitChar _ (by omega)]
      omega

/-- What holds of every hexadecimal digit holds of those of a number. -/
theorem forall_mem_toDigits {p : Char → Prop} (h : ∀ d < 16, p (Nat.digitChar d)) (n : Nat) :
    ∀ c ∈ Nat.toDigits 16 n, p c := by
  induction n using Nat.strongRecOn with
  | _ n ih =>
    by_cases hn : n < 16
    · rw [Nat.toDigits_of_lt_base hn]
      exact List.forall_mem_singleton.2 (h n hn)
    · rw [Nat.toDigits_of_base_le (by decide) (Nat.not_lt.1 hn)]
      exact List.forall_mem_append.2
        ⟨ih (n / 16) (by omega), List.forall_mem_singleton.2 (h _ (by omega))⟩

/-- No digit closes an escape. -/
theorem brace_notMem_toDigits (n : Nat) : '\x7d' ∉ Nat.toDigits 16 n := by
  have hdigits : ∀ d < 16, Nat.digitChar d ≠ '\x7d' := by decide
  exact fun hmem => @forall_mem_toDigits (· ≠ '\x7d') hdigits n _ hmem rfl

/-- The first character of the inside of a quotation, and what is behind its form. -/
def unescape : List Char → Option (Char × List Char)
  | '\\' :: '0' :: rest => some ('\x00', rest)
  | '\\' :: 't' :: rest => some ('\t', rest)
  | '\\' :: 'n' :: rest => some ('\n', rest)
  | '\\' :: 'r' :: rest => some ('\r', rest)
  | '\\' :: 'u' :: rest =>
    some (Char.ofNat (ofHex (rest.tail.takeWhile (· ≠ '\x7d'))),
      (rest.tail.dropWhile (· ≠ '\x7d')).tail)
  | '\\' :: c :: rest => some (c, rest)
  | c :: rest => some (c, rest)
  | [] => none

/-- What is no backslash stands for itself. -/
theorem unescape_of_ne {c : Char} (h : c ≠ '\\') (rest : List Char) :
    unescape (c :: rest) = some (c, rest) := by
  rw [unescape.eq_def]
  split <;> simp_all

/-- A code point is read back up to the brace behind it. -/
theorem unescape_codePointEscape (c : Char) (rest : List Char) :
    unescape (codePointEscape c ++ rest) = some (c, rest) := by
  have hdigits : ∀ d ∈ Nat.toDigits 16 c.toNat, decide (d ≠ '\x7d') = true := by
    intro d hd
    refine decide_eq_true ?_
    rintro rfl
    exact brace_notMem_toDigits c.toNat hd
  have hstop : ∀ c, ('\x7d' :: rest).head? = some c → decide (c ≠ '\x7d') = false := by simp
  obtain ⟨htake, hdrop⟩ := span_of_stop hdigits hstop
  have hform : codePointEscape c ++ rest =
      '\\' :: 'u' :: '\x7b' :: (Nat.toDigits 16 c.toNat ++ '\x7d' :: rest) := by
    simp [codePointEscape]
  rw [hform, unescape, List.tail_cons, htake, hdrop, ofHex_toDigits, Char.ofNat_toNat,
    List.tail_cons]

/-- A character is read back from its form between quotes. -/
theorem unescape_escape (c : Char) (rest : List Char) :
    unescape (escape c ++ rest) = some (c, rest) := by
  unfold escape
  split
  · next h => rw [h]; rfl
  split
  · next h => rw [h]; rfl
  split
  · next h => rw [h]; rfl
  split
  · next h => rw [h]; rfl
  split
  · next h => rcases h with rfl | rfl <;> rfl
  next hmark =>
  split
  · exact unescape_of_ne (fun h => hmark (.inr h)) rest
  · exact unescape_codePointEscape c rest

/-- The form of a character does not begin with a quotation mark. -/
theorem head?_escape_ne (c : Char) (rest : List Char) : (escape c ++ rest).head? ≠ some '"' := by
  intro h
  obtain ⟨more, hmore⟩ := List.head?_eq_some_iff.1 h
  have hread := unescape_escape c rest
  rw [hmore, unescape_of_ne (by decide)] at hread
  cases hread
  cases hmore

/-- A quotation ends where it says. -/
theorem escapeAll_append_inj {cs ds rest rest' : List Char}
    (h : escapeAll cs ++ '"' :: rest = escapeAll ds ++ '"' :: rest') : cs = ds ∧ rest = rest' := by
  induction cs generalizing ds with
  | nil =>
    cases ds with
    | nil => exact ⟨rfl, (List.cons.inj h).2⟩
    | cons d ds =>
      rw [escapeAll_cons, List.append_assoc] at h
      exact absurd (congrArg List.head? h).symm (head?_escape_ne d _)
  | cons c cs ih =>
    cases ds with
    | nil =>
      rw [escapeAll_cons, List.append_assoc] at h
      exact absurd (congrArg List.head? h) (head?_escape_ne c _)
    | cons d ds =>
      rw [escapeAll_cons, escapeAll_cons, List.append_assoc, List.append_assoc] at h
      have hread := congrArg unescape h
      rw [unescape_escape, unescape_escape] at hread
      obtain ⟨rfl, hrest⟩ := Prod.mk.inj (Option.some.inj hread)
      obtain ⟨rfl, hbehind⟩ := ih hrest
      exact ⟨rfl, hbehind⟩

/-- A quotation is read back, whatever stands behind it. -/
theorem quote_append_inj {s t : String} {rest rest' : List Char}
    (h : (quote s).toList ++ rest = (quote t).toList ++ rest') : s = t ∧ rest = rest' := by
  simp only [quote, String.toList_ofList, List.cons_append, List.append_assoc,
    List.nil_append] at h
  obtain ⟨hst, hrest⟩ := escapeAll_append_inj (List.cons.inj h).2
  exact ⟨String.toList_inj.1 hst, hrest⟩

end Reckoner.Text
