import Reckoner.Proofs.Doubles
import Reckoner.Proofs.NumberText
import Reckoner.Proofs.Spelling

/-!
# Reading number literals back

In a dump, a number literal always has a point or an exponent, so its digits and the place of the
point can be read off its text.  With a point, the digits on both sides of it stand for the number
in units of its last place; with an exponent, the digits are those of the coefficient, and the
exponent is where the first of them stands.  Either way the text tells the value of the decimal, and
that is enough: the value lies in the interval of one double only.

## Main definitions

* `Decimal.Layout.PointText text x whole fraction` — the text has `whole` in front of its point and
  `fraction` behind it, which stand for the number `x`.
* `Decimal.Layout.shown m q` — the decimal that is written for the double `m * 2 ^ q`.

## Main results

* `Decimal.Layout.exists_pointText` — what is written positionally is a text with a point.
* `Decimal.Layout.writeScientific_inj` — what is written with an exponent is read back.
* `Decimal.Layout.writeDecimal_value_inj` — the text of a decimal tells its value.
* `Decimal.Layout.write_literal_injective` — **the text of a number literal tells the number.**
-/

namespace Reckoner.Decimal

namespace Layout

/-- The characters are all digits. -/
def AllDigits (cs : List Char) : Prop := ∀ c ∈ cs, c.isDigit = true

variable {digits : List Char}

theorem allDigits_append {cs ds : List Char} :
    AllDigits (cs ++ ds) ↔ AllDigits cs ∧ AllDigits ds := List.forall_mem_append

theorem allDigits_toDigits (n : Nat) : AllDigits (Nat.toDigits 10 n) :=
  fun _ => Nat.isDigit_of_mem_toDigits (by decide) (by decide)

theorem allDigits_zeros (n : Nat) : AllDigits (List.replicate n '0') := by
  intro c hc
  rw [List.eq_of_mem_replicate hc]
  rfl

/-- The number that digits stand for. -/
def ofDigits (cs : List Char) : Nat := Nat.ofDigitChars 10 cs 0

/-- What is known about a text with a point: digits on both sides of it, at least one in front of
it, that stand for the number. -/
structure PointText (text : List Char) (x : ℚ) (whole fraction : List Char) : Prop where
  text_eq : text = whole ++ '.' :: fraction
  whole_ne_nil : whole ≠ []
  digits : AllDigits (whole ++ fraction)
  value_eq : (ofDigits (whole ++ fraction) : ℚ) = x * 10 ^ fraction.length

theorem ofDigits_append (cs ds : List Char) :
    ofDigits (cs ++ ds) = Nat.ofDigitChars 10 ds (ofDigits cs) := Nat.ofDigitChars_append 0

theorem ofDigits_zeros (n : Nat) : ofDigits (List.replicate n '0') = 0 :=
  Nat.ofDigitChars_replicate_zero

/-- A decimal is a natural number of the places that are written. -/
theorem value_mul_pow {d : Decimal} {places k : Nat} (h : d.scale + places = k) :
    d.value * 10 ^ places = (d.coefficient * 10 ^ k : Nat) := by
  rw [value, mul_assoc, ← zpow_natCast, ← zpow_add₀ (by norm_num), h, zpow_natCast]
  push_cast
  rfl

/-- A decimal that is written positionally can be read back. -/
theorem exists_pointText (d : Decimal) :
    ∃ whole fraction, PointText
      (literal.writePositional (Nat.toDigits 10 d.coefficient) d.scale) d.value whole fraction := by
  have hdigits := allDigits_toDigits d.coefficient
  have hread : ofDigits (Nat.toDigits 10 d.coefficient) = d.coefficient :=
    Nat.ofDigitChars_toDigits (by decide) (by decide)
  have hne : Nat.toDigits 10 d.coefficient ≠ [] := Nat.toDigits_ne_nil
  generalize Nat.toDigits 10 d.coefficient = digits at hdigits hread hne
  unfold writePositional
  dsimp only
  split
  · -- a whole number, with a zero behind the point
    next hplaces =>
    refine ⟨digits ++ List.replicate d.scale.toNat '0', ['0'], rfl, ?_, ?_, ?_⟩
    · exact fun h => hne (List.append_eq_nil_iff.1 h).1
    · exact allDigits_append.2 ⟨allDigits_append.2 ⟨hdigits, allDigits_zeros _⟩, allDigits_zeros 1⟩
    · have hscale : d.scale + (1 : Nat) = (d.scale.toNat + 1 : Nat) := by omega
      have hzeros : ['0'] = List.replicate 1 '0' := rfl
      rw [List.length_singleton, value_mul_pow hscale, List.append_assoc, hzeros,
        List.replicate_append_replicate, ofDigits_append, hread, Nat.ofDigitChars_replicate_zero,
        Nat.mul_comm]
  split
  · -- the point is among the digits
    next hplaces hless =>
    refine ⟨_, _, rfl, ?_, ?_, ?_⟩
    · exact fun h => (Nat.sub_pos_of_lt hless).ne' ((List.take_eq_nil_iff.1 h).resolve_right hne)
    · rwa [List.take_append_drop]
    · have hscale : d.scale + (digits.length - (digits.length - (-d.scale).toNat) : Nat) = (0 : Nat) := by
        omega
      rw [List.take_append_drop, hread, List.length_drop, value_mul_pow hscale, Nat.pow_zero,
        Nat.mul_one]
  · -- all digits are behind the point
    next hplaces hmore =>
    refine ⟨['0'], _, rfl, List.cons_ne_nil _ _, ?_, ?_⟩
    · exact allDigits_append.2 ⟨allDigits_zeros 1, allDigits_append.2 ⟨allDigits_zeros _, hdigits⟩⟩
    · have hscale : d.scale + ((-d.scale).toNat - digits.length + digits.length : Nat) = (0 : Nat) := by
        omega
      have hzeros : ['0'] ++ List.replicate ((-d.scale).toNat - digits.length) '0' =
          List.replicate ((-d.scale).toNat - digits.length + 1) '0' := rfl
      rw [List.length_append, List.length_replicate, value_mul_pow hscale, ← List.append_assoc, hzeros,
        ofDigits_append, ofDigits_zeros, Nat.pow_zero, Nat.mul_one]
      exact congrArg _ hread

/-- A text with a point tells the number. -/
theorem PointText.value_inj {text : List Char} {x x' : ℚ} {whole whole' fraction fraction' : List Char}
    (h : PointText text x whole fraction) (h' : PointText text x' whole' fraction') : x = x' := by
  have hstop : ∀ (fraction : List Char) (c : Char), ('.' :: fraction).head? = some c →
      c.isDigit = false := by
    rintro fraction c ⟨⟩
    rfl
  obtain ⟨hwhole, -⟩ := allDigits_append.1 h.digits
  obtain ⟨hwhole', -⟩ := allDigits_append.1 h'.digits
  obtain ⟨rfl, hfraction⟩ := span_inj hwhole hwhole' (hstop fraction) (hstop fraction')
    (h.text_eq.symm.trans h'.text_eq)
  obtain ⟨-, rfl⟩ := List.cons.inj hfraction
  have hsame := h.value_eq.symm.trans h'.value_eq
  exact mul_right_cancel₀ (by positivity) hsame

/-! ### Exponents -/

/-- Digits with a point behind the first tell the digits. -/
theorem writeMantissa_inj {digits digits' : List Char} (hne : digits ≠ []) (hne' : digits' ≠ [])
    (h : writeMantissa digits = writeMantissa digits') : digits = digits' := by
  fun_cases writeMantissa digits with
  | case1 => exact absurd rfl hne
  | case2 d =>
    fun_cases writeMantissa digits' with
    | case1 => exact absurd rfl hne'
    | case2 d' => exact h
    | case3 d' e' ds' => cases h
  | case3 d e ds =>
    fun_cases writeMantissa digits' with
    | case1 => exact absurd rfl hne'
    | case2 d' => cases h
    | case3 d' e' ds' =>
      obtain ⟨hd, htail⟩ := List.cons.inj h
      obtain ⟨-, hrest⟩ := List.cons.inj htail
      rw [hd, hrest]

/-- An integer is read back from its text. -/
theorem writeInt_injective : Function.Injective writeInt := by
  intro m n h
  have hminus : ∀ {k : Nat} {cs : List Char}, Nat.toDigits 10 k ≠ '-' :: cs := by
    intro k cs hdigits
    have hdigit := allDigits_toDigits k '-' (hdigits ▸ List.mem_cons_self)
    cases hdigit
  unfold writeInt at h
  split at h
  · split at h
    · have := toDigits_injective (List.cons.inj h).2
      omega
    · exact absurd h.symm hminus
  · split at h
    · exact absurd h hminus
    · have := toDigits_injective h
      omega

/-- The characters of a text with a point or of a mantissa. -/
def isPositional (c : Char) : Bool := c.isDigit || c = '.'

theorem isPositional_of_mem_mantissa (hdigits : AllDigits digits) :
    ∀ c ∈ writeMantissa digits, isPositional c = true := by
  have hdigit : ∀ c ∈ digits, isPositional c = true := by
    intro c hc
    rw [isPositional, hdigits c hc, Bool.true_or]
  fun_cases writeMantissa digits with
  | case1 | case2 => exact hdigit
  | case3 d e ds =>
    obtain ⟨hd, hrest⟩ := List.forall_mem_cons.1 hdigit
    exact List.forall_mem_cons.2 ⟨hd, List.forall_mem_cons.2 ⟨rfl, hrest⟩⟩

theorem PointText.isPositional {text : List Char} {x : ℚ} {whole fraction : List Char}
    (h : PointText text x whole fraction) : ∀ c ∈ text, Layout.isPositional c = true := by
  intro c hc
  rw [h.text_eq] at hc
  rcases List.mem_append.1 hc with hc | hc
  · rw [Layout.isPositional, h.digits c (List.mem_append_left _ hc), Bool.true_or]
  · rcases List.mem_cons.1 hc with rfl | hc
    · rfl
    · rw [Layout.isPositional, h.digits c (List.mem_append_right _ hc), Bool.true_or]

/-- A decimal that is written with an exponent is read back. -/
theorem writeScientific_inj {d d' : Decimal}
    (h : writeScientific (Nat.toDigits 10 d.coefficient) d.scale =
      writeScientific (Nat.toDigits 10 d'.coefficient) d'.scale) : d = d' := by
  have hstop : ∀ (rest : List Char) (c : Char), ('e' :: rest).head? = some c →
      isPositional c = false := by
    rintro rest c ⟨⟩
    rfl
  obtain ⟨hmantissa, hexponent⟩ := span_inj (isPositional_of_mem_mantissa (allDigits_toDigits _))
    (isPositional_of_mem_mantissa (allDigits_toDigits _)) (hstop _) (hstop _) h
  have hdigits := writeMantissa_inj Nat.toDigits_ne_nil Nat.toDigits_ne_nil hmantissa
  have hplace := writeInt_injective (List.cons.inj hexponent).2
  rw [hdigits] at hplace
  have hscale : d.scale = d'.scale := by
    unfold leadingPlace at hplace
    omega
  obtain ⟨coefficient, scale⟩ := d
  obtain ⟨coefficient', scale'⟩ := d'
  cases toDigits_injective hdigits
  cases hscale
  rfl

/-- Only a text with an exponent has the letter of the exponent. -/
theorem writeScientific_ne {d : Decimal} {text : List Char}
    (h : ∀ c ∈ text, isPositional c = true) : writeScientific digits d.scale ≠ text := by
  rintro rfl
  exact absurd (h 'e' (List.mem_append_right _ List.mem_cons_self)) (by decide)

/-- The text of a decimal tells its value. -/
theorem writeDecimal_value_inj {d d' : Decimal} (h : literal.writeDecimal d = literal.writeDecimal d') :
    d.value = d'.value := by
  obtain ⟨whole, fraction, htext⟩ := exists_pointText d
  obtain ⟨whole', fraction', htext'⟩ := exists_pointText d'
  unfold writeDecimal at h
  dsimp only at h
  split at h
  · split at h
    · rw [← h] at htext'
      exact htext.value_inj htext'
    · exact absurd h.symm (writeScientific_ne htext.isPositional)
  · split at h
    · exact absurd h (writeScientific_ne htext'.isPositional)
    · rw [writeScientific_inj h]

/-! ### Doubles -/

/-- The text starts with a digit. -/
def StartsDigit (text : List Char) : Prop := ∃ c, text.head? = some c ∧ c.isDigit = true

theorem AllDigits.startsDigit_append (hdigits : AllDigits digits) (hne : digits ≠ [])
    (rest : List Char) : StartsDigit (digits ++ rest) := by
  obtain ⟨d, ds, rfl⟩ := List.exists_cons_of_ne_nil hne
  exact ⟨d, rfl, hdigits d List.mem_cons_self⟩

theorem startsDigit_writeMantissa (hdigits : AllDigits digits) (hne : digits ≠ [])
    (rest : List Char) : StartsDigit (writeMantissa digits ++ rest) := by
  fun_cases writeMantissa digits with
  | case1 => exact absurd rfl hne
  | case2 d | case3 d e ds => exact ⟨d, rfl, hdigits d List.mem_cons_self⟩

theorem startsDigit_writeDecimal (d : Decimal) : StartsDigit (literal.writeDecimal d) := by
  unfold writeDecimal
  dsimp only
  split
  · obtain ⟨whole, fraction, htext⟩ := exists_pointText d
    rw [htext.text_eq]
    exact (allDigits_append.1 htext.digits).1.startsDigit_append htext.whole_ne_nil _
  · exact startsDigit_writeMantissa (allDigits_toDigits _) Nat.toDigits_ne_nil _

/-- The decimal that is written for a double, without its sign. -/
def shown (m : Nat) (q : Int) : Decimal := if m = 0 then ⟨0, 0⟩ else shortest m q

theorem shown_value_eq_zero {m : Nat} {q : Int} : (shown m q).value = 0 ↔ m = 0 := by
  constructor
  · intro h
    by_contra hm
    rw [shown, if_neg hm] at h
    exact (shortest_value_pos (Nat.pos_of_ne_zero hm) q).ne' h
  · rintro rfl
    exact zero_mul _

/-- The decimal that is written for a double tells the double. -/
theorem shown_value_inj {m m' : Nat} {q q' : Int} (h : Fits m q) (h' : Fits m' q')
    (hvalue : (shown m q).value = (shown m' q').value) : m = m' ∧ q = q' := by
  by_cases hm : m = 0
  · have hm' : m' = 0 := shown_value_eq_zero.1 (hvalue.symm.trans (shown_value_eq_zero.2 hm))
    exact ⟨hm.trans hm'.symm, (h.eq_minExponent hm).trans (h'.eq_minExponent hm').symm⟩
  · have hm' : m' ≠ 0 := by
      intro hm'
      exact hm (shown_value_eq_zero.1 (hvalue.trans (shown_value_eq_zero.2 hm')))
    rw [shown, shown, if_neg hm, if_neg hm'] at hvalue
    exact shortest_value_inj (Nat.pos_of_ne_zero hm) (Nat.pos_of_ne_zero hm') h h' hvalue

/-- A double is negated. -/
def negated : Binary64 → Bool
  | .nan => false
  | .infinite negative | .finite negative _ _ => negative

/-- The text of a double without its sign. -/
def magnitude : Binary64 → List Char
  | .nan => ['N', 'a', 'N']
  | .infinite _ => ['i', 'n', 'f']
  | .finite _ m q => literal.writeDecimal (shown m q)

theorem writeDecimal_zero : literal.writeDecimal ⟨0, 0⟩ = '0' :: literal.wholeTail := by
  rw [writeDecimal, Nat.toDigits_zero]
  rfl

theorem writeBinary_literal (x : Binary64) :
    literal.writeBinary x = signed (negated x) (magnitude x) := by
  cases x with
  | nan => rfl
  | infinite negative => rfl
  | finite negative m q =>
    cases m with
    | zero => exact congrArg (signed negative) writeDecimal_zero.symm
    | succ m => rfl

/-- A sign and a text that has none are told apart. -/
theorem signed_inj {negative negative' : Bool} {text text' : List Char} (htext : text.head? ≠ some '-')
    (htext' : text'.head? ≠ some '-') (h : signed negative text = signed negative' text') :
    negative = negative' ∧ text = text' := by
  cases negative <;> cases negative'
  · exact ⟨rfl, h⟩
  · exact absurd (congrArg List.head? h) htext
  · exact absurd (congrArg List.head? h).symm htext'
  · exact ⟨rfl, (List.cons.inj h).2⟩

theorem StartsDigit.head?_ne {text : List Char} (h : StartsDigit text) {c : Char}
    (hc : c.isDigit = false) : text.head? ≠ some c := by
  obtain ⟨d, hhead, hd⟩ := h
  rintro hsame
  cases hhead.symm.trans hsame
  exact absurd (hd.symm.trans hc) (by decide)

theorem head?_magnitude_ne (x : Binary64) : (magnitude x).head? ≠ some '-' := by
  cases x with
  | nan | infinite => simp [magnitude]
  | finite negative m q => exact (startsDigit_writeDecimal _).head?_ne rfl

/-- The text of a double tells it. -/
theorem writeBinary_inj {x y : Binary64} (hx : x.Held) (hy : y.Held)
    (h : literal.writeBinary x = literal.writeBinary y) : x = y := by
  rw [writeBinary_literal, writeBinary_literal] at h
  obtain ⟨hnegated, hmagnitude⟩ := signed_inj (head?_magnitude_ne x) (head?_magnitude_ne y) h
  have hdigit : ∀ {d : Decimal} {c : Char} {cs : List Char}, c.isDigit = false →
      literal.writeDecimal d ≠ c :: cs :=
    fun hc hsame => (startsDigit_writeDecimal _).head?_ne hc (congrArg List.head? hsame)
  cases x <;> cases y
  case nan.nan => rfl
  case infinite.infinite => exact congrArg _ hnegated
  case finite.finite =>
    obtain ⟨rfl, rfl⟩ := shown_value_inj hx hy (writeDecimal_value_inj hmagnitude)
    exact congrArg (Binary64.finite · _ _) hnegated
  case nan.infinite | infinite.nan => cases hmagnitude
  case nan.finite | infinite.finite => exact absurd hmagnitude.symm (hdigit rfl)
  case finite.nan | finite.infinite => exact absurd hmagnitude (hdigit rfl)

/-- The text of a number literal tells the number. -/
theorem write_literal_injective : Function.Injective literal.write := by
  intro x y h
  have hsame := writeBinary_inj (Binary64.held_ofFloat x) (Binary64.held_ofFloat y)
    (String.ofList_inj.1 h)
  exact Binary64.ofFloat_injective hsame

end Layout

end Reckoner.Decimal
