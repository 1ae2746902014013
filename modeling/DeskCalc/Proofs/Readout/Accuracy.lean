import DeskCalc.Proofs.Readout.Notation

set_option autoImplicit false

/-! # How exact the result line is

A number is shown as a plain decimal that is off by at most half of the last place. The one
exception is a number within the tolerance of an integer: it is shown as that integer, which is the
nearest one. The distance from the integer is computed without rounding, so the exception is made by
the exact distance. What is shown can be typed again, and is then one number.
-/

namespace DeskCalc

open PlainDecimal (ofMagnitude denoted_ofMagnitude)

variable {u : Nat}

/-- The tolerance is compared with the exact distance from the nearest integer. -/
theorem Readout.Snaps.distance_lt (h : Readout.Snaps u) :
    (Double.distance u : ℚ) / Double.unitsPerOne < Readout.snapTolerance.toRat := by
  obtain ⟨hunits, htolerance⟩ := Readout.snapTolerance_eq
  rw [htolerance]
  show (Double.distance u : ℚ) / Double.unitsPerOne <
    ((Readout.snapUnits : Int) : ℚ) / Double.unitsPerOne
  rw [Int.cast_natCast]
  exact div_lt_div_of_pos_right (Nat.cast_lt.2 h) Double.cast_unitsPerOne_pos

/-- The number is shown as the integer `k`, which is nearest to it and within the tolerance. -/
structure SnappedTo (x : Double) (shown : List Char) (k : Int) : Prop where
  denoted : denoted shown = k
  nearest : ∀ m : Int, |(k : ℚ) - x.toRat| ≤ |(m : ℚ) - x.toRat|
  distance_lt : |(k : ℚ) - x.toRat| < Readout.snapTolerance.toRat

theorem snappedTo_ofMagnitude (negative : Bool) (h : Representable u) (hsnaps : Readout.Snaps u)
    (places : Nat) :
    SnappedTo (.finite negative u h) (ofMagnitude places negative u).text
      (Double.signedUnits negative (Double.nearest u)) := by
  have hdistance := abs_signedUnits_nearest_sub negative h
  refine ⟨?_, abs_sub_le_of_le_half ?_, ?_⟩
  · have hten : (10 : ℚ) ^ places ≠ 0 := by positivity
    rw [denoted_ofMagnitude, Readout.coefficient_of_snaps hsnaps, Double.signedUnits_mul_natCast,
      Int.cast_mul, Int.cast_natCast, cast_pow10, mul_div_cancel_right₀ _ hten]
  · have hhalf : 2 * (Double.distance u : ℚ) ≤ Double.unitsPerOne := by
      exact_mod_cast Double.two_mul_distance_le u
    rw [hdistance, div_le_div_iff₀ Double.cast_unitsPerOne_pos two_pos]
    linarith
  · rw [hdistance]
    exact hsnaps.distance_lt

theorem abs_denoted_sub_le (negative : Bool) (h : Representable u) (hsnaps : ¬Readout.Snaps u)
    (places : Nat) :
    |denoted (ofMagnitude places negative u).text - (Double.finite negative u h).toRat| ≤
      1 / (2 * 10 ^ places) := by
  rw [denoted_ofMagnitude, Readout.coefficient_of_not_snaps hsnaps]
  exact (abs_signedUnits_sub negative _ u (10 ^ places) Double.unitsPerOne).trans_le
    (abs_round_sub_le places u)

/-- **What is shown of a number.** A finite double is shown as a plain decimal of at most as many
places as are asked for, between 0 and 15 of them, and never as `-0`. The decimal is off by at most
half of the last of these places, or the double has been snapped to the nearest integer. What is
shown is an expression of a single number, and its value is finite. -/
theorem showNumber_plain {x : Double} (hx : x.isFinite = true) (places : Int) :
    ∃ n : PlainDecimal (Readout.clampPlaces places),
      showNumber x places = .ok (String.ofList n.text) ∧ n.text ≠ ['-', '0'] ∧
      (|denoted n.text - x.toRat| ≤ 1 / (2 * 10 ^ Readout.clampPlaces places) ∨
        ∃ k, SnappedTo x n.text k) ∧
      ∃ y, tokenize n.text = .ok [.number y] ∧ evaluate n.text = .ok (.value y) ∧
        y.isFinite = true := by
  cases x with
  | infinite | nan => cases hx
  | finite negative u h =>
      have hfinite :=
        PlainDecimal.isFinite_value_ofMagnitude (Readout.clampPlaces places) negative h
      refine ⟨ofMagnitude _ negative u, showNumber_finite negative h places,
        PlainDecimal.text_ne_minus_zero _, ?_, _, PlainDecimal.tokenize_text _,
        PlainDecimal.evaluate_text _ hfinite, hfinite⟩
      by_cases hsnaps : Readout.Snaps u
      · exact Or.inr ⟨_, snappedTo_ofMagnitude negative h hsnaps _⟩
      · exact Or.inl (abs_denoted_sub_le negative h hsnaps _)

/-- Half of one is rounded to the even neighbour, which is zero, and the minus sign goes with it. -/
theorem showNumber_plain_half :
    ∃ n : PlainDecimal 0,
      showNumber (Double.ofDecimal true ⟨5, -1⟩) (-3) = .ok (String.ofList n.text) ∧
      n.text = ['0'] ∧ ∃ y, evaluate n.text = .ok (.value y) ∧ y.isFinite = true := by
  have hchars : Readout.numberChars (Double.ofDecimal true ⟨5, -1⟩) (-3) = .ok ['0'] := by
    decide +kernel
  have hfinite : (Double.ofDecimal true ⟨5, -1⟩).isFinite = true := by decide +kernel
  obtain ⟨n, hshown, -, -, y, -, hvalue, hy⟩ := showNumber_plain hfinite (-3)
  have htext : String.ofList ['0'] = String.ofList n.text := by
    rw [showNumber, hchars] at hshown
    exact Except.ok.inj hshown
  exact ⟨n, hshown, (String.ofList_injective htext).symm, y, hvalue, hy⟩

end DeskCalc
