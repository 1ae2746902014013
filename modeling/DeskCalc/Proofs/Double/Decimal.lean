import Mathlib.Tactic.SplitIfs
import DeskCalc.Double.Text
import DeskCalc.Proofs.Double.Rounding

set_option autoImplicit false

/-! # Decimals and the doubles they are read as

Rounding looks at a quotient and not at its parts, so zeros at the end of a significand may be
moved into the exponent (`ofDecimal_mul_pow10`). Reading a decimal without large powers gives the
same double as reading it exactly (`ofScientific_eq`), because a decimal that is far out of range
is rounded to infinity or to zero. The shortest decimal of a magnitude reads back as it
(`ofDecimal_shortest`): either the search has tested that, or the decimal is the exact expansion.
-/

namespace DeskCalc

/-! ## Rounding a quotient -/

theorem roundHalfEven_mul_mul (num den : Nat) {c : Nat} (hc : 0 < c) :
    roundHalfEven (num * c) (den * c) = roundHalfEven num den := by
  have hlt : 2 * (num % den * c) < den * c ↔ 2 * (num % den) < den := by
    rw [← Nat.mul_assoc]
    exact Nat.mul_lt_mul_right hc
  have heq : 2 * (num % den * c) = den * c ↔ 2 * (num % den) = den := by
    rw [← Nat.mul_assoc]
    exact Nat.mul_left_inj hc.ne'
  unfold roundHalfEven
  dsimp only
  simp only [Nat.mul_div_mul_right num den hc, Nat.mul_mod_mul_right, hlt, heq]

theorem roundSignificand_mul_mul (num den : Nat) {c : Nat} (hc : 0 < c) :
    roundSignificand (num * c) (den * c) = roundSignificand num den := by
  unfold roundSignificand
  rw [Nat.mul_div_mul_right num den hc]
  dsimp only
  rw [Nat.mul_right_comm, roundHalfEven_mul_mul num _ hc]

/-- A quotient below one half is rounded to zero. -/
theorem roundSignificand_eq_zero {num den : Nat} (h : 2 * num < den) :
    roundSignificand num den = 0 := by
  have hlt : num < den := by omega
  have hshift : (num / den).log2 - 52 = 0 := by
    rw [Nat.div_eq_of_lt hlt, Nat.log2_zero]
  unfold roundSignificand roundHalfEven
  dsimp only
  rw [hshift, pow2_zero, Nat.mul_one, Nat.mul_one, Nat.mod_eq_of_lt hlt, Nat.div_eq_of_lt hlt,
    if_pos (Or.inl h)]

/-- A quotient that is too large for a double is still too large once rounded. -/
theorem unitLimit_le_roundSignificand {num den : Nat} (h : unitLimit * den ≤ num)
    (hden : 0 < den) : unitLimit ≤ roundSignificand num den := by
  have hpower : pow2 (unitLimit.log2 - 52) ∣ unitLimit := by
    rw [unitLimit_eq]
    exact pow2_log2_sub_dvd_pow2 2098
  exact le_roundSignificand h hpower hden

namespace Double

theorem ofUnitRatio_mul_mul (negative : Bool) (num den : Nat) {c : Nat} (hc : 0 < c) :
    ofUnitRatio negative (num * c) (den * c) = ofUnitRatio negative num den := by
  unfold ofUnitRatio
  simp only [roundSignificand_mul_mul num den hc]

theorem ofUnitRatio_of_small (negative : Bool) {num den : Nat} (h : 2 * num < den) :
    ofUnitRatio negative num den = zero negative := by
  unfold ofUnitRatio
  simp only [roundSignificand_eq_zero h, dif_pos unitLimit_pos]
  rfl

theorem ofUnitRatio_of_large (negative : Bool) {num den : Nat} (h : unitLimit * den ≤ num)
    (hden : 0 < den) : ofUnitRatio negative num den = .infinite negative := by
  have hround := unitLimit_le_roundSignificand h hden
  unfold ofUnitRatio
  exact dif_neg (Nat.not_lt_of_le hround)

/-! ## Decimals of the same value -/

theorem ofDecimal_ofNat (negative : Bool) (m k : Nat) :
    ofDecimal negative ⟨m, (k : Int)⟩ = ofUnitRatio negative (m * pow10 k * unitsPerOne) 1 := rfl

theorem ofDecimal_neg (negative : Bool) (m k : Nat) :
    ofDecimal negative ⟨m, -(k : Int)⟩ = ofUnitRatio negative (m * unitsPerOne) (pow10 k) := by
  cases k with
  | zero =>
      show ofUnitRatio negative (m * pow10 0 * unitsPerOne) 1 = _
      rw [pow10_zero, Nat.mul_one]
  | succ k => rfl

theorem ofDecimal_zero (negative : Bool) (e : Int) : ofDecimal negative ⟨0, e⟩ = zero negative := by
  obtain ⟨k, rfl | rfl⟩ := Int.eq_nat_or_neg e
  · rw [ofDecimal_ofNat, Nat.zero_mul, Nat.zero_mul]
    exact ofUnitRatio_of_small negative (by omega)
  · rw [ofDecimal_neg, Nat.zero_mul]
    exact ofUnitRatio_of_small negative (by have := pow10_pos k; omega)

/-- Zeros at the end of the significand count as powers of ten. -/
theorem ofDecimal_mul_pow10 (negative : Bool) (m k : Nat) (e : Int) :
    ofDecimal negative ⟨m * pow10 k, e⟩ = ofDecimal negative ⟨m, e + k⟩ := by
  obtain ⟨j, rfl | rfl⟩ := Int.eq_nat_or_neg e
  · rw [← Int.natCast_add, ofDecimal_ofNat, ofDecimal_ofNat, Nat.add_comm j k, pow10_add,
      Nat.mul_assoc m]
  · rcases Nat.le_total k j with hle | hle
    · -- the exponent stays negative, and the quotient is shortened by the power
      obtain ⟨i, rfl⟩ := Nat.exists_eq_add_of_le hle
      have hexponent : -((k + i : Nat) : Int) + k = -(i : Int) := by omega
      rw [hexponent, ofDecimal_neg, ofDecimal_neg, Nat.add_comm k i, pow10_add,
        Nat.mul_right_comm m, ofUnitRatio_mul_mul negative _ _ (pow10_pos k)]
    · -- the quotient becomes a whole number
      obtain ⟨i, rfl⟩ := Nat.exists_eq_add_of_le hle
      have hexponent : -(j : Int) + (j + i : Nat) = (i : Int) := by omega
      have hscale := ofUnitRatio_mul_mul negative (m * pow10 i * unitsPerOne) 1 (pow10_pos j)
      rw [hexponent, ofDecimal_neg, ofDecimal_ofNat, ← hscale, Nat.one_mul, pow10_add]
      congr 1
      ring

/-! ## Reading without large powers -/

theorem pow2_three_mul_le_pow10 (n : Nat) : pow2 (3 * n) ≤ pow10 n := by
  induction n with
  | zero => exact Nat.le_refl 1
  | succ n ih =>
      have height : pow2 3 = 8 := rfl
      rw [Nat.mul_add, Nat.mul_one, pow2_add, pow10_succ, height]
      exact Nat.mul_le_mul ih (by omega)

/-- The clamps of `ofScientific` agree with exact reading. -/
theorem ofScientific_eq (negative : Bool) (d : Decimal) :
    ofScientific negative d = ofDecimal negative d := by
  obtain ⟨m, e⟩ := d
  unfold ofScientific
  dsimp only
  split_ifs with hm hlarge hsmall
  · rw [hm, ofDecimal_zero]
  · obtain ⟨k, rfl⟩ := Int.eq_ofNat_of_zero_le (a := e) (by omega)
    rw [ofDecimal_ofNat]
    refine (ofUnitRatio_of_large negative ?_ Nat.one_pos).symm
    rw [unitLimit_eq, unitsPerOne_eq, Nat.mul_one]
    calc pow2 2098 ≤ pow2 (3 * k + 1074) := pow2_le_pow2 (by omega)
      _ = pow2 (3 * k) * pow2 1074 := pow2_add _ _
      _ ≤ pow10 k * pow2 1074 := Nat.mul_le_mul_right _ (pow2_three_mul_le_pow10 k)
      _ ≤ m * pow10 k * pow2 1074 :=
        Nat.mul_le_mul_right _ (Nat.le_mul_of_pos_left _ (Nat.pos_of_ne_zero hm))
  · obtain ⟨k, hk⟩ := Int.eq_ofNat_of_zero_le (a := -e) (by omega)
    obtain rfl : e = -(k : Int) := by omega
    rw [ofDecimal_neg]
    refine (ofUnitRatio_of_small negative ?_).symm
    rw [unitsPerOne_eq]
    have hlog : m < pow2 (m.log2 + 1) := lt_pow2_log2_succ m
    calc 2 * (m * pow2 1074) < 2 * (pow2 (m.log2 + 1) * pow2 1074) := by
          have := Nat.mul_lt_mul_of_pos_right hlog (pow2_pos 1074)
          omega
      _ = pow2 (m.log2 + 1 + 1074 + 1) := by
          rw [pow2_succ (m.log2 + 1 + 1074), pow2_add (m.log2 + 1) 1074, Nat.mul_comm]
      _ ≤ pow2 (3 * k) := pow2_le_pow2 (by omega)
      _ ≤ pow10 k := pow2_three_mul_le_pow10 k
  · rfl

/-! ## The shortest decimal -/

/-- If a unit is `2^-n`, it is `5^n * 10^-n`. -/
theorem ofDecimal_five_pow {n units : Nat} {e : Int} (hn : unitsPerOne = pow2 n)
    (he : e = -(n : Int)) (h : Representable units) :
    ofDecimal false ⟨units * Nat.pow 5 n, e⟩ = .finite false units h := by
  have hten : Nat.pow 5 n * pow2 n = pow10 n := (Nat.mul_pow 5 2 n).symm
  rw [he, ofDecimal_neg, hn, Nat.mul_assoc, hten, ofUnitRatio_mul_right false h (pow10_pos n)]

theorem ofDecimal_exactDecimal {units : Nat} (h : Representable units) :
    ofDecimal false (exactDecimal units) = .finite false units h := by
  unfold exactDecimal
  apply ofDecimal_five_pow
  · exact unitsPerOne_eq
  · rfl

theorem ofDecimal_of_readsBack {units : Nat} {d : Decimal} (hread : readsBack units d = true)
    (h : Representable units) : ofDecimal false d = .finite false units h := by
  unfold readsBack at hread
  split at hread
  · rename_i s u hu heq
    obtain rfl : u = units := eq_of_beq hread
    have hsign : s = false := by
      unfold ofDecimal ofUnitRatio at heq
      dsimp only at heq
      split at heq <;> split at heq <;> cases heq <;> rfl
    rw [heq, hsign]
  · cases hread

/-- The shortest decimal of a magnitude reads back as the magnitude. -/
theorem ofDecimal_shortest (negative : Bool) {units : Nat} (h : Representable units) :
    ofDecimal negative (shortest units) = .finite negative units h := by
  have hpositive : ofDecimal false (shortest units) = .finite false units h := by
    unfold shortest
    cases hfound : (shortCandidates units).find? (readsBack units) with
    | none => exact ofDecimal_exactDecimal h
    | some d => exact ofDecimal_of_readsBack (List.find?_some hfound) h
  cases negative with
  | false => exact hpositive
  | true =>
      have hneg := neg_ofDecimal false (shortest units)
      rw [hpositive, neg_finite] at hneg
      exact hneg.symm

end Double

end DeskCalc
