import DeskCalc.Machine
import DeskCalc.Proofs.Double.NearestInteger
import DeskCalc.Proofs.Text.Digits

set_option autoImplicit false

/-! # The number that is shown

A finite double is snapped to an integer or rounded to a number of places. In both cases what is
shown is the sign of the double and a whole number of `10^-places`, its `coefficient`
(`numberChars_eq`).

The coefficient grows with the magnitude (`coefficient_mono`). Rounding keeps the order, and so does
snapping. If only one of two magnitudes is snapped, then the integer it is snapped to does not lie
beyond the other: it would be nearest to the other one as well, and nearer, so that one would be
snapped too.
-/

namespace DeskCalc.Readout

open Double

/-! ## Snapping -/

/-- The tolerance in units. -/
def snapUnits : Nat := roundSignificand (1 * unitsPerOne) (pow10 10)

theorem snapTolerance_eq : ∃ h, snapTolerance = .finite false snapUnits h := by
  have hle : 1 * unitsPerOne ≤ unitsPerOne * pow10 10 := by
    rw [Nat.one_mul]
    exact Nat.le_mul_of_pos_right _ (pow10_pos 10)
  obtain ⟨u, h, htolerance, rfl, -⟩ :=
    exists_ofUnitRatio_eq_finite false hle representable_unitsPerOne (pow10_pos 10)
  exact ⟨h, htolerance⟩

/-- The magnitude is shown as an integer. -/
def Snaps (u : Nat) : Prop := distance u < snapUnits

instance (u : Nat) : Decidable (Snaps u) := inferInstanceAs (Decidable (_ < _))

theorem lt_snapTolerance_iff (s : Bool) {u : Nat} (h : Representable u) :
    ((finite s u h).sub (ofInt (nearestInteger s u))).abs.lt snapTolerance = true ↔ Snaps u := by
  obtain ⟨hsnap, htolerance⟩ := snapTolerance_eq
  have hdistance := abs_sub_nearest s h
  show ((finite s u h).sub (ofInt (signedUnits s (nearest u)))).abs.lt snapTolerance = true ↔ _
  rw [hdistance, htolerance]
  show decide ((distance u : Int) < (snapUnits : Int)) = true ↔ _
  rw [decide_eq_true_eq, Int.ofNat_lt]
  rfl

/-! ## The coefficient -/

/-- The number of `10^-places` that is shown for a magnitude. -/
def coefficient (places u : Nat) : Nat :=
  if Snaps u then nearest u * pow10 places else roundHalfEven (u * pow10 places) unitsPerOne

section Coefficient

variable {places u v : Nat}

/-- A magnitude on the way to the nearest integer of another one is nearer to it. -/
theorem Snaps.of_le_nearest (h : Snaps u) (huv : u ≤ v) (hv : v ≤ nearest u * unitsPerOne) :
    Snaps v := by
  have hsame : nearest v = nearest u :=
    Nat.le_antisymm (roundHalfEven_le hv unitsPerOne_pos) (nearest_mono huv)
  unfold Snaps distance at h ⊢
  rw [hsame]
  omega

theorem Snaps.of_nearest_le (h : Snaps v) (huv : u ≤ v) (hu : nearest v * unitsPerOne ≤ u) :
    Snaps u := by
  have hsame : nearest u = nearest v :=
    Nat.le_antisymm (nearest_mono huv) (le_roundHalfEven hu unitsPerOne_pos)
  unfold Snaps distance at h ⊢
  rw [hsame]
  omega

theorem coefficient_of_snaps (h : Snaps u) : coefficient places u = nearest u * pow10 places :=
  if_pos h

theorem coefficient_of_not_snaps (h : ¬Snaps u) :
    coefficient places u = roundHalfEven (u * pow10 places) unitsPerOne := if_neg h

/-- A larger magnitude is shown as a number that is at least as large. -/
theorem coefficient_mono (h : u ≤ v) : coefficient places u ≤ coefficient places v := by
  by_cases hu : Snaps u
  · rw [coefficient_of_snaps hu]
    by_cases hv : Snaps v
    · rw [coefficient_of_snaps hv]
      exact Nat.mul_le_mul_right _ (nearest_mono h)
    · -- the integer that the smaller one is snapped to does not lie beyond the larger one
      have hle : nearest u * unitsPerOne ≤ v := by
        by_contra hlt
        exact hv (hu.of_le_nearest h (by omega))
      rw [coefficient_of_not_snaps hv]
      refine le_roundHalfEven ?_ unitsPerOne_pos
      rw [Nat.mul_right_comm]
      exact Nat.mul_le_mul_right _ hle
  · rw [coefficient_of_not_snaps hu]
    by_cases hv : Snaps v
    · have hle : u ≤ nearest v * unitsPerOne := by
        by_contra hlt
        exact hu (hv.of_nearest_le h (by omega))
      rw [coefficient_of_snaps hv]
      refine roundHalfEven_le ?_ unitsPerOne_pos
      rw [Nat.mul_right_comm]
      exact Nat.mul_le_mul_right _ hle
    · rw [coefficient_of_not_snaps hv]
      exact roundHalfEven_mono (Nat.mul_le_mul_right _ h) _

/-- An integer is shown as it is. -/
theorem coefficient_mul_unitsPerOne (places n : Nat) :
    coefficient places (n * unitsPerOne) = n * pow10 places := by
  unfold coefficient
  split
  · rw [nearest_mul_unitsPerOne]
  · rw [Nat.mul_right_comm, roundHalfEven_mul_right _ _ unitsPerOne_pos]

theorem coefficient_le {n : Nat} (h : u ≤ n * unitsPerOne) :
    coefficient places u ≤ n * pow10 places := by
  rw [← coefficient_mul_unitsPerOne]
  exact coefficient_mono h

@[simp] theorem coefficient_zero (places : Nat) : coefficient places 0 = 0 := by
  have hzero := coefficient_mul_unitsPerOne places 0
  rwa [Nat.zero_mul, Nat.zero_mul] at hzero

end Coefficient

/-! ## The characters -/

theorem trimmedFixed_eq (places c : Nat) :
    trimmedFixed places c =
      if Digits.fraction places (c % pow10 places) = [] then Nat.toDigits 10 (c / pow10 places)
      else Nat.toDigits 10 (c / pow10 places) ++
        '.' :: Digits.fraction places (c % pow10 places) := rfl

theorem trimmedFixed_mul_pow10 (places n : Nat) :
    trimmedFixed places (n * pow10 places) = Nat.toDigits 10 n := by
  rw [trimmedFixed_eq, Nat.mul_mod_left, Nat.mul_div_cancel n (pow10_pos places),
    Digits.fraction_zero, if_pos rfl]

/-- An integer is written as its digits, after a sign unless it is zero. -/
theorem signedText_trimmedFixed (s : Bool) (places n : Nat) :
    signedText (s && n * pow10 places != 0) (trimmedFixed places (n * pow10 places)) =
      Digits.ofInt (signedUnits s n) := by
  have hzero : (n * pow10 places != 0) = (n != 0) := by
    simp [bne, (pow10_pos places).ne']
  have hsign : signedUnits s n < 0 ↔ (s && n != 0) = true := by
    cases s with
    | false => simp [signedUnits]
    | true =>
        simp only [signedUnits, if_true, Bool.true_and, bne_iff_ne]
        omega
  unfold Digits.ofInt signedText
  rw [trimmedFixed_mul_pow10, hzero, natAbs_signedUnits]
  exact if_congr hsign.symm rfl rfl

/-- **What is shown of a number.** -/
theorem numberChars_eq (s : Bool) {u : Nat} (h : Representable u) (places : Int) :
    numberChars (.finite s u h) places =
      .ok (signedText (s && coefficient (clampPlaces places) u != 0)
        (trimmedFixed (clampPlaces places) (coefficient (clampPlaces places) u))) := by
  have hsnaps := lt_snapTolerance_iff s h
  unfold numberChars
  dsimp only
  by_cases hsnap : Snaps u
  · rw [if_pos (hsnaps.2 hsnap), coefficient_of_snaps hsnap, signedText_trimmedFixed]
    rfl
  · rw [if_neg fun hlt => hsnap (hsnaps.1 hlt), coefficient_of_not_snaps hsnap]
    rfl

end DeskCalc.Readout
