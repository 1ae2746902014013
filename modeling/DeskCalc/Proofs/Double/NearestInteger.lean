import DeskCalc.Proofs.Double.Integers
import DeskCalc.Proofs.Double.Rounding

set_option autoImplicit false

/-! # The integer nearest to a double

From `2^52` on every double is an integer (`eq_or_lt_of_representable`). Below that the nearest
integer is a double too, and the distance from it is at most the number itself and made of the same
bits. So the distance is a double, and the difference as it is computed is the exact one
(`abs_sub_nearest`).
-/

namespace DeskCalc.Double

/-- The natural number nearest to a magnitude, a half to the even neighbour. -/
def nearest (u : Nat) : Nat := roundHalfEven u unitsPerOne

/-- The distance of a magnitude from the nearest natural number, in units. -/
def distance (u : Nat) : Nat := (u - nearest u * unitsPerOne) + (nearest u * unitsPerOne - u)

variable {u v : Nat}

theorem nearest_mul_unitsPerOne (n : Nat) : nearest (n * unitsPerOne) = n :=
  roundHalfEven_mul_right n unitsPerOne unitsPerOne_pos

theorem nearest_mono (h : u ≤ v) : nearest u ≤ nearest v := roundHalfEven_mono h unitsPerOne

/-- The distance is at most one half. -/
theorem two_mul_distance_le (u : Nat) : 2 * distance u ≤ unitsPerOne := by
  have hnear := roundHalfEven_near u unitsPerOne_pos
  unfold distance nearest
  omega

/-- The nearest natural number is nought, or the distance is at most the magnitude. -/
theorem distance_le (u : Nat) : distance u ≤ u := by
  have hhalf := two_mul_distance_le u
  unfold distance at hhalf ⊢
  by_cases hzero : nearest u = 0
  · rw [hzero, Nat.zero_mul]
    omega
  · have hone : unitsPerOne ≤ nearest u * unitsPerOne :=
      Nat.le_mul_of_pos_left _ (Nat.pos_of_ne_zero hzero)
    omega

/-- A magnitude is a natural number, or it is below `2^52`. -/
theorem eq_or_lt_of_representable (h : Representable u) :
    (∃ n, u = n * unitsPerOne) ∨ u < pow2 52 * unitsPerOne := by
  by_cases hlt : u < pow2 52 * unitsPerOne
  · exact Or.inr hlt
  · rw [unitsPerOne_eq, ← pow2_add] at hlt
    have hne : u ≠ 0 := by
      rintro rfl
      exact hlt (pow2_pos _)
    have hlog : ¬u.log2 < 1126 := fun hlog => hlt ((log2_lt_iff_lt_pow2 hne).1 hlog)
    -- with that many bits the last one kept is worth one
    obtain ⟨n, hn⟩ := Nat.dvd_trans (pow2_dvd_pow2 (m := 1074) (by omega)) h.2
    refine Or.inl ⟨n, ?_⟩
    rw [hn, unitsPerOne_eq, Nat.mul_comm]

/-- A magnitude is at most a natural number that is a double. -/
theorem exists_le_mul_unitsPerOne (h : Representable u) :
    ∃ n, u ≤ n * unitsPerOne ∧ Representable (n * unitsPerOne) := by
  rcases eq_or_lt_of_representable h with ⟨n, rfl⟩ | hlt
  · exact ⟨n, Nat.le_refl _, h⟩
  · exact ⟨pow2 52, Nat.le_of_lt hlt, representable_mul_unitsPerOne (pow2_le_pow2 (by omega))⟩

theorem representable_nearest (h : Representable u) :
    Representable (nearest u * unitsPerOne) := by
  rcases eq_or_lt_of_representable h with ⟨n, rfl⟩ | hlt
  · rwa [nearest_mul_unitsPerOne]
  · have hnearest : nearest u ≤ pow2 52 := roundHalfEven_le (Nat.le_of_lt hlt) unitsPerOne_pos
    exact representable_mul_unitsPerOne (Nat.le_trans hnearest (pow2_le_pow2 (by omega)))

/-- The distance has no more bits than the magnitude, and its last bit is not below the last bit
of the magnitude. -/
theorem representable_distance (h : Representable u) : Representable (distance u) := by
  rcases eq_or_lt_of_representable h with ⟨n, rfl⟩ | hlt
  · have hzero : distance (n * unitsPerOne) = 0 := by
      rw [distance, nearest_mul_unitsPerOne, Nat.sub_self]
    rw [hzero]
    exact representable_zero
  · have hlog : u.log2 - 52 ≤ 1074 := by
      by_cases hne : u = 0
      · rw [hne, Nat.log2_zero]
        omega
      · rw [unitsPerOne_eq, ← pow2_add] at hlt
        have hbits := (log2_lt_iff_lt_pow2 hne).2 hlt
        omega
    have hunit : pow2 (u.log2 - 52) ∣ nearest u * unitsPerOne := by
      rw [unitsPerOne_eq]
      exact Nat.dvd_mul_left_of_dvd (pow2_dvd_pow2 hlog) _
    have hdistance : pow2 (u.log2 - 52) ∣ distance u :=
      Nat.dvd_add (Nat.dvd_sub h.2 hunit) (Nat.dvd_sub hunit h.2)
    have hbits : (distance u).log2 ≤ u.log2 := log2_mono (distance_le u)
    refine ⟨Nat.lt_of_le_of_lt (distance_le u) h.1, ?_⟩
    exact Nat.dvd_trans (pow2_dvd_pow2 (by omega)) hdistance

/-! ## The computed difference -/

theorem abs_add {s t : Bool} {hu : Representable u} {hv : Representable v}
    (h : Representable (signedUnits s u + signedUnits t v).natAbs) :
    ((finite s u hu).add (finite t v hv)).abs =
      finite false (signedUnits s u + signedUnits t v).natAbs h := by
  show (if signedUnits s u + signedUnits t v = 0 then zero (s && t)
    else ofUnits _ (signedUnits s u + signedUnits t v).natAbs).abs = _
  split
  · rename_i hzero
    rw [abs_zero]
    simp only [hzero, Int.natAbs_zero]
    rfl
  · rw [ofUnits_eq _ h]
    rfl

theorem natAbs_signedUnits_sub (s : Bool) (u v : Nat) :
    (signedUnits s u + -signedUnits s v).natAbs = (u - v) + (v - u) := by
  cases s with
  | false =>
      show ((u : Int) + -(v : Int)).natAbs = _
      omega
  | true =>
      show (-(u : Int) + - -(v : Int)).natAbs = _
      omega

theorem ofInt_signedUnits (s : Bool) {n : Nat} (h : Representable (n * unitsPerOne)) :
    ofInt (signedUnits s n) = finite (decide (signedUnits s n < 0)) (n * unitsPerOne) h := by
  unfold ofInt
  rw [natAbs_signedUnits, ofUnits_eq _ h]

/-- The distance from the nearest integer is computed without rounding. -/
theorem abs_sub_nearest (s : Bool) (h : Representable u) :
    ((finite s u h).sub (ofInt (signedUnits s (nearest u)))).abs =
      finite false (distance u) (representable_distance h) := by
  have hsign : signedUnits (decide (signedUnits s (nearest u) < 0)) (nearest u * unitsPerOne) =
      signedUnits s (nearest u * unitsPerOne) := by
    have hnatAbs := signedUnits_natAbs (signedUnits s (nearest u))
    rw [natAbs_signedUnits] at hnatAbs
    rw [signedUnits_mul_natCast, hnatAbs, ← signedUnits_mul_natCast]
  have htotal : (signedUnits s u + signedUnits (!decide (signedUnits s (nearest u) < 0))
      (nearest u * unitsPerOne)).natAbs = distance u := by
    rw [signedUnits_not, hsign, natAbs_signedUnits_sub, distance]
  rw [sub, ofInt_signedUnits s (representable_nearest h), neg_finite, abs_add]
  · simp only [htotal]
  · rw [htotal]
    exact representable_distance h

end DeskCalc.Double
