import Mathlib.Tactic.Ring
import Mathlib.Tactic.Set
import DeskCalc.Double.Arithmetic
import DeskCalc.Double.Text

set_option autoImplicit false

/-! # Results that need no rounding

Rounding leaves a representable quotient alone. So the product with one is the other factor,
and the product with minus one is the other factor negated, for every double.
-/

namespace DeskCalc

/-- A quotient of at most 53 significant bits is not rounded. -/
theorem roundSignificand_mul_right {units den : Nat} (h : pow2 (units.log2 - 52) ∣ units)
    (hden : 0 < den) : roundSignificand (units * den) den = units := by
  obtain ⟨significand, hunits⟩ := h
  unfold roundSignificand
  rw [Nat.mul_div_cancel units hden]
  dsimp only
  set scale := pow2 (units.log2 - 52)
  have hscale : 0 < den * scale := Nat.mul_pos hden (pow2_pos _)
  have hnum : units * den = significand * (den * scale) := by
    rw [hunits]
    ring
  rw [hnum, roundHalfEven_mul_right significand _ hscale, Nat.mul_comm, ← hunits]

theorem pow2_lt_pow2 {m n : Nat} (h : m < n) : pow2 m < pow2 n :=
  Nat.pow_lt_pow_right (by omega) h

/-- A power of two has one significant bit. -/
theorem pow2_log2_sub_dvd_pow2 (n : Nat) : pow2 ((pow2 n).log2 - 52) ∣ pow2 n := by
  rw [log2_pow2]
  exact pow2_dvd_pow2 (by omega)

theorem representable_pow2 {n : Nat} (h : n < 2098) : Representable (pow2 n) := by
  refine ⟨?_, pow2_log2_sub_dvd_pow2 n⟩
  rw [unitLimit_eq]
  exact pow2_lt_pow2 h

namespace Double

theorem representable_unitsPerOne : Representable unitsPerOne := by
  rw [unitsPerOne_eq]
  exact representable_pow2 (by omega)

theorem unitsPerOne_pos : 0 < unitsPerOne := unitsPerOne_eq ▸ pow2_pos 1074

theorem ofUnitRatio_mul_right (negative : Bool) {units den : Nat} (h : Representable units)
    (hden : 0 < den) :
    ofUnitRatio negative (units * den) den = .finite negative units h := by
  have hround := roundSignificand_mul_right h.2 hden
  unfold ofUnitRatio
  simp only [hround, dif_pos h.1]

theorem ofUnits_eq (negative : Bool) {units : Nat} (h : Representable units) :
    ofUnits negative units = .finite negative units h := by
  have hratio := ofUnitRatio_mul_right negative h Nat.one_pos
  rwa [Nat.mul_one] at hratio

theorem ofInt_one : ofInt 1 = .finite false unitsPerOne representable_unitsPerOne := by
  show ofUnits false (1 * unitsPerOne) = _
  rw [Nat.one_mul, ofUnits_eq false representable_unitsPerOne]

theorem ofInt_neg_one : ofInt (-1) = .finite true unitsPerOne representable_unitsPerOne := by
  show ofUnits true (1 * unitsPerOne) = _
  rw [Nat.one_mul, ofUnits_eq true representable_unitsPerOne]

@[simp] theorem mul_one (x : Double) : x.mul (ofInt 1) = x := by
  rw [ofInt_one]
  cases x with
  | finite s u h =>
      show ofUnitRatio (s ^^ false) (u * unitsPerOne) unitsPerOne = _
      rw [ofUnitRatio_mul_right _ h unitsPerOne_pos, Bool.xor_false]
  | infinite s =>
      show (if unitsPerOne = 0 then nan else infinite (s ^^ false)) = _
      rw [if_neg unitsPerOne_pos.ne', Bool.xor_false]
  | nan => rfl

@[simp] theorem mul_neg_one (x : Double) : x.mul (ofInt (-1)) = x.neg := by
  rw [ofInt_neg_one]
  cases x with
  | finite s u h =>
      show ofUnitRatio (s ^^ true) (u * unitsPerOne) unitsPerOne = _
      rw [ofUnitRatio_mul_right _ h unitsPerOne_pos, Bool.xor_true, neg_finite]
  | infinite s =>
      show (if unitsPerOne = 0 then nan else infinite (s ^^ true)) = _
      rw [if_neg unitsPerOne_pos.ne', Bool.xor_true, neg_infinite]
  | nan => rfl

theorem neg_ofDecimal (negative : Bool) (d : Decimal) :
    (ofDecimal negative d).neg = ofDecimal (!negative) d := by
  unfold ofDecimal
  split <;> exact neg_ofUnitRatio negative _ _

end Double

end DeskCalc
