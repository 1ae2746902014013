import DeskCalc.Proofs.Double.Decimal
import DeskCalc.Proofs.Double.Value
import DeskCalc.Proofs.Expression.Precedence
import DeskCalc.Proofs.Expression.Reading
import DeskCalc.Proofs.Readout.Coefficient

set_option autoImplicit false

/-! # How numbers are written on the result line

A number is written as a whole part without needless zeros in front and a fraction without needless
zeros at the end, after a minus sign if it is negative; there is no negative zero (`PlainDecimal`).
A coefficient, with a sign unless it is zero, is written in this way, and what is written stands for
the coefficient divided by the power of ten (`denoted_ofCoefficient`).

Such a text is an expression of one number. Its value is finite as long as the number is at most an
integer that is a double (`PlainDecimal.isFinite_value`).
-/

namespace DeskCalc

/-- The number that a text stands for: digits with at most one point among them, and a minus sign
in front if the number is negative. -/
def denoted : List Char → ℚ
  | '-' :: run => -(decimalOf run).toRat
  | run => (decimalOf run).toRat

theorem denoted_signedText (negative : Bool) {run : List Char} (h : run.head? ≠ some '-') :
    denoted (Double.signedText negative run) =
      if negative then -(decimalOf run).toRat else (decimalOf run).toRat := by
  cases negative with
  | true => rfl
  | false =>
      show denoted run = (decimalOf run).toRat
      unfold denoted
      split
      · exact absurd rfl h
      · rfl

/-- A number as it is written on the result line, with a limited number of places. -/
structure PlainDecimal (places : Nat) where
  negative : Bool
  whole : List Char
  fraction : List Char
  /-- The whole part is a zero or begins with another digit. -/
  isWhole : whole = ['0'] ∨ Digits.Leading whole
  isDigit_of_mem_fraction : ∀ c ∈ fraction, c.isDigit = true
  length_fraction_le : fraction.length ≤ places
  /-- The fraction does not end in a zero. -/
  getLast?_fraction : fraction.getLast? ≠ some '0'
  /-- Zero has no sign. -/
  ne_zero_of_negative : negative = true → whole = ['0'] → fraction ≠ []

namespace PlainDecimal

variable {places : Nat} (n : PlainDecimal places)

/-- The point stands between the parts if there is a fraction. -/
def run : List Char := if n.fraction = [] then n.whole else n.whole ++ '.' :: n.fraction

def text : List Char := Double.signedText n.negative n.run

/-- The digits on both sides of the point, as one number. -/
def significand : Nat := Nat.ofDigitChars 10 (n.whole ++ n.fraction) 0

theorem isDigit_of_mem_whole : ∀ c ∈ n.whole, c.isDigit = true := by
  rcases n.isWhole with hzero | hleading
  · rw [hzero]
    exact List.forall_mem_singleton.2 rfl
  · exact hleading.digits

theorem whole_ne_nil : n.whole ≠ [] := by
  rcases n.isWhole with hzero | hleading
  · rw [hzero]
    exact List.cons_ne_nil _ _
  · exact hleading.ne_nil

theorem decimalOf_run : decimalOf n.run = ⟨n.significand, -(n.fraction.length : Int)⟩ := by
  unfold run significand
  split
  · rename_i hnone
    rw [hnone, decimalOf_digits n.isDigit_of_mem_whole, List.append_nil]
    rfl
  · exact decimalOf_point n.isDigit_of_mem_whole n.fraction

theorem head?_run : n.run.head? = n.whole.head? := by
  unfold run
  split
  · rfl
  · exact List.head?_append_of_ne_nil _ n.whole_ne_nil

theorem isDigit_of_head?_run {c : Char} (h : n.run.head? = some c) : c.isDigit = true := by
  rw [head?_run] at h
  exact n.isDigit_of_mem_whole c (List.mem_of_head? h)

theorem denoted_text :
    denoted n.text =
      if n.negative then -((n.significand : ℚ) / 10 ^ n.fraction.length)
      else (n.significand : ℚ) / 10 ^ n.fraction.length := by
  have hhead : n.run.head? ≠ some '-' := fun h => by cases n.isDigit_of_head?_run h
  rw [text, denoted_signedText _ hhead, decimalOf_run, Decimal.toRat_neg]

/-- A number begins with a minus sign or a digit. -/
theorem eq_or_isDigit_of_head?_text {c : Char} (h : n.text.head? = some c) :
    c = '-' ∨ c.isDigit = true := by
  unfold text Double.signedText at h
  split at h
  · exact Or.inl (Option.some.inj h).symm
  · exact Or.inr (n.isDigit_of_head?_run h)

theorem text_ne_minus_zero : n.text ≠ ['-', '0'] := by
  intro h
  unfold text Double.signedText at h
  split at h
  · rename_i hnegative
    have hrun : n.run = ['0'] := (List.cons.inj h).2
    unfold run at hrun
    split at hrun
    · rename_i hnone
      exact n.ne_zero_of_negative hnegative hrun hnone
    · -- a point would be a second character
      have hlength := congrArg List.length hrun
      have hwhole := List.length_pos_iff.2 n.whole_ne_nil
      simp only [List.length_append, List.length_cons, List.length_nil] at hlength
      omega
  · cases n.isDigit_of_head?_run (c := '-') (by rw [h]; rfl)

/-! ## Reading -/

theorem count_point_of_digits {digits : List Char} (h : ∀ c ∈ digits, c.isDigit = true) :
    digits.count '.' = 0 := by
  refine List.count_eq_zero.2 fun hpoint => ?_
  cases h '.' hpoint

theorem run_ne_nil : n.run ≠ [] := by
  intro h
  have hhead := n.head?_run
  rw [h] at hhead
  exact n.whole_ne_nil (List.head?_eq_none_iff.1 hhead.symm)

theorem isNumeric_of_mem_run {c : Char} (hc : c ∈ n.run) : isNumeric c = true := by
  have hdigit {c : Char} (h : c.isDigit = true) : isNumeric c = true := by
    rw [isNumeric, h, Bool.true_or]
  unfold run at hc
  split at hc
  · exact hdigit (n.isDigit_of_mem_whole c hc)
  · rcases List.mem_append.1 hc with hwhole | hrest
    · exact hdigit (n.isDigit_of_mem_whole c hwhole)
    · rcases List.mem_cons.1 hrest with rfl | hfraction
      · rfl
      · exact hdigit (n.isDigit_of_mem_fraction c hfraction)

theorem count_point_run_le : n.run.count '.' ≤ 1 := by
  have hwhole := count_point_of_digits n.isDigit_of_mem_whole
  have hfraction := count_point_of_digits n.isDigit_of_mem_fraction
  unfold run
  split
  · omega
  · rw [List.count_append, List.count_cons_self]
    omega

/-- The text as a number of the grammar of expressions. -/
def numeral : Numeral where
  sign := if n.negative then some .minus else none
  run := n.run
  run_ne_nil := n.run_ne_nil
  isNumeric_of_mem := fun _ => n.isNumeric_of_mem_run
  count_point_le := n.count_point_run_le

theorem text_numeral : n.numeral.text = n.text := by
  unfold Numeral.text Numeral.signChars numeral text Double.signedText
  cases n.negative <;> rfl

/-- The text as an expression. -/
def layout : Layout := ⟨.bare n.numeral, []⟩

theorem text_layout : n.layout.text = n.text := by
  show (Slot.bare n.numeral).text ++ [] = n.text
  rw [List.append_nil, Slot.text_bare, text_numeral]

theorem tokenize_text : tokenize n.text = .ok [.number n.numeral.value] := by
  rw [← text_layout]
  exact DeskCalc.tokenize_text n.layout

theorem evaluate_text (h : n.numeral.value.isFinite = true) :
    evaluate n.text = .ok (.value n.numeral.value) := by
  rw [← text_layout, Layout.evaluate_text]
  exact congrArg Except.ok (if_pos h)

theorem negative_numeral : n.numeral.negative = n.negative := by
  unfold Numeral.negative numeral
  cases n.negative <;> rfl

/-- A number that is at most an integer among the doubles is read as a finite double. -/
theorem isFinite_value {k : Nat} (hk : Representable (k * Double.unitsPerOne))
    (h : n.significand ≤ k * pow10 n.fraction.length) : n.numeral.value.isFinite = true := by
  have hvalue : n.numeral.value =
      Double.ofUnitRatio n.negative (n.significand * Double.unitsPerOne)
        (pow10 n.fraction.length) := by
    rw [Numeral.value_eq, negative_numeral]
    show Double.ofDecimal n.negative (decimalOf n.run) = _
    rw [decimalOf_run, Double.ofDecimal_neg]
  have hbound : n.significand * Double.unitsPerOne ≤
      k * Double.unitsPerOne * pow10 n.fraction.length := by
    rw [Nat.mul_right_comm]
    exact Nat.mul_le_mul_right _ h
  obtain ⟨u, hu, hfinite, -, -⟩ :=
    Double.exists_ofUnitRatio_eq_finite n.negative hbound hk (pow10_pos _)
  rw [hvalue, hfinite]
  rfl

/-! ## Coefficients -/

section Coefficient

variable {c : Nat}

/-- The value of the digits of a coefficient, its whole part and its fraction put together. -/
theorem ofDigitChars_parts (places c : Nat) :
    Nat.ofDigitChars 10
        (Nat.toDigits 10 (c / pow10 places) ++ Digits.fraction places (c % pow10 places)) 0 *
        pow10 places =
      c * pow10 (Digits.fraction places (c % pow10 places)).length := by
  obtain ⟨-, hfraction⟩ := Digits.fraction_spec (Nat.mod_lt c (pow10_pos places))
  set fraction := Digits.fraction places (c % pow10 places)
  rw [Nat.ofDigitChars_append, Nat.ofDigitChars_ten_toDigits,
    Nat.ofDigitChars_eq_ofDigitChars_zero]
  show (pow10 fraction.length * (c / pow10 places) + Nat.ofDigitChars 10 fraction 0) *
    pow10 places = _
  calc (pow10 fraction.length * (c / pow10 places) + Nat.ofDigitChars 10 fraction 0) *
        pow10 places
      = pow10 fraction.length * (pow10 places * (c / pow10 places)) +
          Nat.ofDigitChars 10 fraction 0 * pow10 places := by ring
    _ = pow10 fraction.length * (pow10 places * (c / pow10 places)) +
          c % pow10 places * pow10 fraction.length := by rw [hfraction]
    _ = (pow10 places * (c / pow10 places) + c % pow10 places) * pow10 fraction.length := by ring
    _ = c * pow10 fraction.length := by rw [Nat.div_add_mod]

theorem isWhole_toDigits (m : Nat) :
    Nat.toDigits 10 m = ['0'] ∨ Digits.Leading (Nat.toDigits 10 m) := by
  by_cases h : m = 0
  · rw [h]
    exact Or.inl rfl
  · exact Or.inr (Digits.leading_toDigits h)

/-- Only zero is written with the parts of zero. -/
theorem eq_zero_of_parts (hwhole : Nat.toDigits 10 (c / pow10 places) = ['0'])
    (hnone : Digits.fraction places (c % pow10 places) = []) : c = 0 := by
  have hparts := ofDigitChars_parts places c
  have hzero : Nat.ofDigitChars 10 (['0'] ++ []) 0 = 0 := rfl
  rw [hwhole, hnone, hzero, Nat.zero_mul, List.length_nil, pow10_zero, Nat.mul_one] at hparts
  exact hparts.symm

/-- A coefficient as it is written. -/
def ofCoefficient (places c : Nat) (negative : Bool) (h : negative = true → c ≠ 0) :
    PlainDecimal places where
  negative := negative
  whole := Nat.toDigits 10 (c / pow10 places)
  fraction := Digits.fraction places (c % pow10 places)
  isWhole := isWhole_toDigits _
  isDigit_of_mem_fraction := Digits.isDigit_of_mem_fraction
  length_fraction_le := (Digits.fraction_spec (Nat.mod_lt c (pow10_pos places))).1
  getLast?_fraction := Digits.getLast?_fraction _ _
  ne_zero_of_negative := fun hnegative hwhole hnone => h hnegative (eq_zero_of_parts hwhole hnone)

theorem text_ofCoefficient {negative : Bool} (h : negative = true → c ≠ 0) :
    (ofCoefficient places c negative h).text =
      Double.signedText negative (Readout.trimmedFixed places c) := rfl

theorem significand_ofCoefficient {negative : Bool} (h : negative = true → c ≠ 0) :
    (ofCoefficient places c negative h).significand * pow10 places =
      c * pow10 (ofCoefficient places c negative h).fraction.length :=
  ofDigitChars_parts places c

/-- What is written stands for the coefficient divided by the power of ten. -/
theorem denoted_ofCoefficient {negative : Bool} (h : negative = true → c ≠ 0) :
    denoted (ofCoefficient places c negative h).text =
      (Double.signedUnits negative c : ℚ) / 10 ^ places := by
  have hquotient : ((ofCoefficient places c negative h).significand : ℚ) /
      10 ^ (ofCoefficient places c negative h).fraction.length = c / 10 ^ places := by
    have hparts : (ofCoefficient places c negative h).significand * pow10 places = _ :=
      significand_ofCoefficient h
    rw [div_eq_div_iff (by positivity) (by positivity), ← cast_pow10, ← cast_pow10]
    exact_mod_cast hparts
  rw [denoted_text, hquotient, Double.cast_signedUnits]
  cases negative with
  | false => rfl
  | true => exact (neg_div _ _).symm

theorem significand_ofCoefficient_le {negative : Bool} (h : negative = true → c ≠ 0) {k : Nat}
    (hc : c ≤ k * pow10 places) :
    (ofCoefficient places c negative h).significand ≤
      k * pow10 (ofCoefficient places c negative h).fraction.length := by
  refine Nat.le_of_mul_le_mul_right ?_ (pow10_pos places)
  rw [significand_ofCoefficient, Nat.mul_right_comm]
  exact Nat.mul_le_mul_right _ hc

end Coefficient

/-! ## Numbers -/

/-- What is shown of a finite double. -/
def ofMagnitude (places : Nat) (negative : Bool) (u : Nat) : PlainDecimal places :=
  ofCoefficient places (Readout.coefficient places u)
    (negative && Readout.coefficient places u != 0)
    fun h => bne_iff_ne.1 (Bool.and_eq_true_iff.1 h).2

theorem denoted_ofMagnitude (places : Nat) (negative : Bool) (u : Nat) :
    denoted (ofMagnitude places negative u).text =
      (Double.signedUnits negative (Readout.coefficient places u) : ℚ) / 10 ^ places := by
  have hsign (c : Nat) :
      Double.signedUnits (negative && c != 0) c = Double.signedUnits negative c := by
    by_cases hc : c = 0
    · rw [hc]
      cases negative <;> rfl
    · rw [bne_iff_ne.2 hc, Bool.and_true]
  rw [ofMagnitude, denoted_ofCoefficient, hsign]

/-- What is shown reads as one number of a finite value. -/
theorem isFinite_value_ofMagnitude (places : Nat) (negative : Bool) {u : Nat}
    (h : Representable u) : (ofMagnitude places negative u).numeral.value.isFinite = true := by
  obtain ⟨k, hle, hk⟩ := Double.exists_le_mul_unitsPerOne h
  exact isFinite_value _ hk (significand_ofCoefficient_le _ (Readout.coefficient_le hle))

end PlainDecimal

theorem showNumber_finite (negative : Bool) {u : Nat} (h : Representable u) (places : Int) :
    showNumber (.finite negative u h) places =
      .ok (String.ofList
        (PlainDecimal.ofMagnitude (Readout.clampPlaces places) negative u).text) := by
  rw [showNumber, Readout.numberChars_eq]
  rfl

end DeskCalc
