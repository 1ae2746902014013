import DeskCalc.Proofs.Double.Exact

set_option autoImplicit false

/-! # Rounding keeps the order

A quotient that is larger is rounded to a number that is at least as large. This holds of the
rounding to a natural number and of the rounding to 53 significant bits, where the larger quotient
may be cut off at a higher bit. Numbers that need no rounding are therefore bounds: a quotient that
is at most such a number is at most that number once rounded, and the same the other way round.
-/

namespace DeskCalc

/-! ## Rounding to a natural number -/

theorem roundHalfEven_mono {m n : Nat} (h : m ≤ n) (den : Nat) :
    roundHalfEven m den ≤ roundHalfEven n den := by
  have hquotient : m / den ≤ n / den := Nat.div_le_div_right h
  by_cases heq : m / den = n / den
  · -- between the same two neighbours the remainders decide
    have hm := Nat.div_add_mod m den
    have hn := Nat.div_add_mod n den
    unfold roundHalfEven
    dsimp only
    rw [heq] at hm ⊢
    split_ifs <;> omega
  · calc roundHalfEven m den ≤ m / den + 1 := roundHalfEven_le_succ m den
      _ ≤ n / den := by omega
      _ ≤ roundHalfEven n den := div_le_roundHalfEven n den

theorem roundHalfEven_le {num n den : Nat} (h : num ≤ n * den) (hden : 0 < den) :
    roundHalfEven num den ≤ n := by
  have hmono := roundHalfEven_mono h den
  rwa [roundHalfEven_mul_right n den hden] at hmono

theorem le_roundHalfEven {num n den : Nat} (h : n * den ≤ num) (hden : 0 < den) :
    n ≤ roundHalfEven num den := by
  have hmono := roundHalfEven_mono h den
  rwa [roundHalfEven_mul_right n den hden] at hmono

/-- A quotient is rounded by at most one half. -/
theorem roundHalfEven_near (num : Nat) {den : Nat} (hden : 0 < den) :
    2 * (roundHalfEven num den * den) ≤ 2 * num + den ∧
      2 * num ≤ 2 * (roundHalfEven num den * den) + den := by
  have hdivision := Nat.div_add_mod num den
  have hremainder := Nat.mod_lt num hden
  have hcommute := Nat.mul_comm den (num / den)
  have hsucc : (num / den + 1) * den = num / den * den + den := Nat.succ_mul _ _
  unfold roundHalfEven
  dsimp only
  split_ifs with hdown
  · omega
  · rw [hsucc]
    omega

/-! ## Rounding to 53 significant bits -/

theorem log2_mono {m n : Nat} (h : m ≤ n) : m.log2 ≤ n.log2 := by
  by_cases hm : m = 0
  · rw [hm, Nat.log2_zero]
    exact Nat.zero_le _
  · have hlt : m < pow2 (n.log2 + 1) := Nat.lt_of_le_of_lt h (lt_pow2_log2_succ n)
    have hlog := (log2_lt_iff_lt_pow2 hm).2 hlt
    omega

/-- A quotient of at least 53 bits keeps its first bit when it is cut off and rounded. -/
theorem pow2_le_roundHalfEven_shifted {num den : Nat} (hshift : 52 < (num / den).log2) :
    pow2 52 ≤ roundHalfEven num (den * pow2 ((num / den).log2 - 52)) := by
  have hne : num / den ≠ 0 := by
    intro hzero
    rw [hzero, Nat.log2_zero] at hshift
    omega
  have hexponent : 52 + ((num / den).log2 - 52) = (num / den).log2 := by omega
  refine Nat.le_trans ?_ (div_le_roundHalfEven _ _)
  rw [← Nat.div_div_eq_div_mul, Nat.le_div_iff_mul_le (pow2_pos _), ← pow2_add, hexponent]
  exact Nat.log2_self_le hne

theorem roundSignificand_mono {m n : Nat} (h : m ≤ n) (den : Nat) :
    roundSignificand m den ≤ roundSignificand n den := by
  have hquotient : m / den ≤ n / den := Nat.div_le_div_right h
  have hlog : (m / den).log2 ≤ (n / den).log2 := log2_mono hquotient
  by_cases heq : (m / den).log2 - 52 = (n / den).log2 - 52
  · unfold roundSignificand
    dsimp only
    rw [heq]
    exact Nat.mul_le_mul_right _ (roundHalfEven_mono h _)
  · -- the larger quotient has more bits, and a power of two lies between the two
    calc roundSignificand m den
        ≤ pow2 53 * pow2 ((m / den).log2 - 52) :=
          Nat.mul_le_mul_right _ (roundHalfEven_shifted_le m den)
      _ = pow2 (53 + ((m / den).log2 - 52)) := (pow2_add _ _).symm
      _ ≤ pow2 (52 + ((n / den).log2 - 52)) := pow2_le_pow2 (by omega)
      _ = pow2 52 * pow2 ((n / den).log2 - 52) := pow2_add _ _
      _ ≤ roundSignificand n den :=
          Nat.mul_le_mul_right _ (pow2_le_roundHalfEven_shifted (by omega))

theorem roundSignificand_le {num units den : Nat} (h : num ≤ units * den)
    (hunits : pow2 (units.log2 - 52) ∣ units) (hden : 0 < den) :
    roundSignificand num den ≤ units := by
  have hmono := roundSignificand_mono h den
  rwa [roundSignificand_mul_right hunits hden] at hmono

theorem le_roundSignificand {num units den : Nat} (h : units * den ≤ num)
    (hunits : pow2 (units.log2 - 52) ∣ units) (hden : 0 < den) :
    units ≤ roundSignificand num den := by
  have hmono := roundSignificand_mono h den
  rwa [roundSignificand_mul_right hunits hden] at hmono

namespace Double

/-- A quotient that is at most a representable number of units gives a finite double of at most
that many units. -/
theorem exists_ofUnitRatio_eq_finite (negative : Bool) {num units den : Nat}
    (h : num ≤ units * den) (hunits : Representable units) (hden : 0 < den) :
    ∃ (u : Nat) (hu : Representable u),
      ofUnitRatio negative num den = .finite negative u hu ∧ u = roundSignificand num den ∧
        u ≤ units := by
  have hle := roundSignificand_le h hunits.2 hden
  have hlt : roundSignificand num den < unitLimit := Nat.lt_of_le_of_lt hle hunits.1
  refine ⟨_, ⟨hlt, pow2_dvd_roundSignificand num den⟩, ?_, rfl, hle⟩
  unfold ofUnitRatio
  exact dif_pos hlt

end Double

end DeskCalc
