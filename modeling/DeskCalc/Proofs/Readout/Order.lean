import DeskCalc.Proofs.Readout.Notation

set_option autoImplicit false

/-! # The order of what is shown

The result line keeps the order of numbers: a number that is at most another one is shown as a
number that is at most what the other one is shown as. This is the order of the coefficients, which
holds on both sides of the edge between numbers that are snapped and numbers that are rounded. A
number with the other sign is shown with the other sign, and zero without one.
-/

namespace DeskCalc

/-- The text with the other sign; zero has none. -/
def flipSign (text : List Char) : List Char :=
  if text = ['0'] then text
  else
    match text with
    | '-' :: run => run
    | run => '-' :: run

theorem flipSign_signedText (negative : Bool) {run : List Char} (hzero : run ≠ ['0'])
    (hhead : run.head? ≠ some '-') :
    flipSign (Double.signedText negative run) = Double.signedText (!negative) run := by
  cases negative with
  | true => exact if_neg fun h => by cases h
  | false =>
      show flipSign run = '-' :: run
      unfold flipSign
      rw [if_neg hzero]
      split
      · exact absurd rfl hhead
      · rfl

namespace PlainDecimal

variable {places : Nat}

theorem denoted_ofMagnitude_mono {s t : Bool} {u v : Nat}
    (h : Double.signedUnits s u ≤ Double.signedUnits t v) :
    denoted (ofMagnitude places s u).text ≤ denoted (ofMagnitude places t v).text := by
  have hcoefficients := Double.signedUnits_mono (f := Readout.coefficient places)
    (fun _ _ hle => Readout.coefficient_mono hle) (Readout.coefficient_zero places) h
  rw [denoted_ofMagnitude, denoted_ofMagnitude]
  exact div_le_div_of_nonneg_right (Int.cast_le.2 hcoefficients) (by positivity)

theorem text_ofMagnitude_not (negative : Bool) (u : Nat) :
    (ofMagnitude places (!negative) u).text = flipSign (ofMagnitude places negative u).text := by
  set c := Readout.coefficient places u with hc
  have htext (s : Bool) : (ofMagnitude places s u).text =
      Double.signedText (s && c != 0) (Readout.trimmedFixed places c) := text_ofCoefficient _
  rw [htext, htext]
  by_cases hzero : c = 0
  · have hdigits : Readout.trimmedFixed places 0 = ['0'] := by
      have hinteger := Readout.trimmedFixed_mul_pow10 places 0
      rwa [Nat.zero_mul, Nat.toDigits_zero] at hinteger
    rw [hzero, hdigits]
    cases negative <;> rfl
  · -- a coefficient that is not zero is not written as zero, since `-0` is never written
    let n : PlainDecimal places := ofCoefficient places c true fun _ => hzero
    have hrun : Readout.trimmedFixed places c ≠ ['0'] := fun h =>
      n.text_ne_minus_zero (congrArg ('-' :: ·) h)
    have hhead : (Readout.trimmedFixed places c).head? ≠ some '-' := fun h => by
      cases n.isDigit_of_head?_run h
    rw [bne_iff_ne.2 hzero, Bool.and_true, Bool.and_true, flipSign_signedText negative hrun hhead]

end PlainDecimal

/-- **The order and the sign of what is shown.** At any number of places a finite double is shown as
a number that is at most what any larger double is shown as, and its negation is shown as the text
with the other sign, except that zero stays as it is. -/
theorem showNumber_order (places : Int) :
    (∀ x y : Double, x.isFinite = true → y.isFinite = true → x.toRat ≤ y.toRat →
      ∃ s t, showNumber x places = .ok (String.ofList s) ∧
        showNumber y places = .ok (String.ofList t) ∧ denoted s ≤ denoted t) ∧
    ∀ x : Double, x.isFinite = true →
      ∃ s, showNumber x places = .ok (String.ofList s) ∧
        showNumber x.neg places = .ok (String.ofList (flipSign s)) := by
  refine ⟨fun x y hx hy hxy => ?_, fun x hx => ?_⟩
  · cases x with
    | infinite | nan => cases hx
    | finite s u hu =>
        cases y with
        | infinite | nan => cases hy
        | finite t v hv =>
            exact ⟨_, _, showNumber_finite s hu places, showNumber_finite t hv places,
              PlainDecimal.denoted_ofMagnitude_mono (Double.toRat_le_toRat_iff.1 hxy)⟩
  · cases x with
    | infinite | nan => cases hx
    | finite s u hu =>
        refine ⟨_, showNumber_finite s hu places, ?_⟩
        rw [← PlainDecimal.text_ofMagnitude_not]
        exact showNumber_finite (!s) hu places

/-- Of two numbers just below one the larger is snapped, and the smaller keeps its digits and takes
the other sign. -/
theorem showNumber_order_edge :
    ∃ x y : Double, x = .ofDecimal false ⟨99999999985, -11⟩ ∧
      y = .ofDecimal false ⟨99999999995, -11⟩ ∧
      ∃ s t, showNumber x 15 = .ok (String.ofList s) ∧ showNumber y 15 = .ok (String.ofList t) ∧
        s = "0.99999999985".toList ∧ t = ['1'] ∧ denoted s ≤ denoted t ∧
        showNumber x.neg 15 = .ok "-0.99999999985" := by
  have hx : Readout.numberChars (.ofDecimal false ⟨99999999985, -11⟩) 15 =
      .ok "0.99999999985".toList := by
    decide +kernel
  have hy : Readout.numberChars (.ofDecimal false ⟨99999999995, -11⟩) 15 = .ok ['1'] := by
    decide +kernel
  have hshown {x : Double} {chars s : List Char} (hchars : Readout.numberChars x 15 = .ok chars)
      (h : showNumber x 15 = .ok (String.ofList s)) : s = chars := by
    rw [showNumber, hchars] at h
    exact (String.ofList_injective (Except.ok.inj h)).symm
  obtain ⟨horder, hsign⟩ := showNumber_order 15
  obtain ⟨s, t, hs, ht, hle⟩ :=
    horder _ _ (by decide +kernel) (by decide +kernel)
      (by decide +kernel : (Double.ofDecimal false ⟨99999999985, -11⟩).toRat ≤
        (Double.ofDecimal false ⟨99999999995, -11⟩).toRat)
  obtain ⟨r, hr, hflip⟩ := hsign (.ofDecimal false ⟨99999999985, -11⟩) (by decide +kernel)
  obtain rfl : r = "0.99999999985".toList := hshown hx hr
  exact ⟨_, _, rfl, rfl, s, t, hs, ht, hshown hx hs, hshown hy ht, hle, hflip⟩

end DeskCalc
