import Mathlib.Algebra.Order.Field.Basic
import Mathlib.Algebra.Order.Ring.Unbundled.Rat
import Mathlib.Tactic.FieldSimp
import Mathlib.Tactic.Linarith
import Mathlib.Tactic.NormNum
import Mathlib.Tactic.Positivity
import DeskCalc.Proofs.Double.NearestInteger

set_option autoImplicit false

/-! # The numbers that doubles and decimals stand for

A finite double and a decimal are rational numbers. What is proved of units and significands, which
are natural numbers, is stated here of the numbers themselves: the order of doubles is that of their
units, the nearest natural number of a magnitude is the nearest integer of the double, and a
magnitude that is rounded to a number of places is off by at most half of the last place.
-/

namespace DeskCalc

theorem cast_pow10 (n : Nat) : ((pow10 n : Nat) : ℚ) = 10 ^ n := by
  show ((10 ^ n : Nat) : ℚ) = 10 ^ n
  push_cast
  rfl

/-- The number that a decimal stands for. -/
def Decimal.toRat (d : Decimal) : ℚ := d.significand * 10 ^ d.exponent

theorem Decimal.toRat_neg (m k : Nat) : (Decimal.mk m (-(k : Int))).toRat = m / 10 ^ k := by
  show (m : ℚ) * 10 ^ (-(k : Int)) = m / 10 ^ k
  rw [zpow_neg, zpow_natCast, div_eq_mul_inv]

namespace Double

/-- The number that a finite double stands for; the others stand for none and count as zero. -/
def toRat : Double → ℚ
  | .finite s u _ => signedUnits s u / unitsPerOne
  | _ => 0

theorem cast_signedUnits (s : Bool) (u : Nat) :
    ((signedUnits s u : Int) : ℚ) = if s then -(u : ℚ) else u := by
  cases s with
  | false => rfl
  | true => exact Int.cast_neg _

theorem cast_unitsPerOne_pos : (0 : ℚ) < unitsPerOne := Nat.cast_pos.2 unitsPerOne_pos

section Order

variable {s t : Bool} {u v : Nat}

theorem toRat_le_toRat_iff {hu : Representable u} {hv : Representable v} :
    (finite s u hu).toRat ≤ (finite t v hv).toRat ↔ signedUnits s u ≤ signedUnits t v := by
  show (signedUnits s u : ℚ) / unitsPerOne ≤ signedUnits t v / unitsPerOne ↔ _
  rw [div_le_div_iff_of_pos_right cast_unitsPerOne_pos, Int.cast_le]

/-- Signed numbers are in the order of their magnitudes, or against it if they are negative. -/
theorem signedUnits_mono {f : Nat → Nat} (hf : ∀ m n, m ≤ n → f m ≤ f n) (hzero : f 0 = 0)
    (h : signedUnits s u ≤ signedUnits t v) : signedUnits s (f u) ≤ signedUnits t (f v) := by
  cases s with
  | false =>
      cases t with
      | false => exact Int.ofNat_le.2 (hf u v (Int.ofNat_le.1 h))
      | true =>
          have hsum : (u : Int) ≤ -(v : Int) := h
          obtain rfl : u = 0 := by omega
          obtain rfl : v = 0 := by omega
          rw [hzero]
          exact Int.le_refl 0
  | true =>
      cases t with
      | false =>
          show -(f u : Int) ≤ (f v : Int)
          omega
      | true =>
          have hreverse : -(u : Int) ≤ -(v : Int) := h
          have hle := hf v u (by omega)
          show -(f u : Int) ≤ -(f v : Int)
          omega

end Order

end Double

/-! ## Distances -/

section Distances

open Double (signedUnits cast_signedUnits nearest distance unitsPerOne unitsPerOne_pos
  cast_unitsPerOne_pos)

/-- The sign does not count for the distance of numbers of one sign. -/
theorem abs_signedUnits_sub (s : Bool) (m n : Nat) (p q : ℚ) :
    |(signedUnits s m : ℚ) / p - signedUnits s n / q| = |(m : ℚ) / p - n / q| := by
  rw [cast_signedUnits, cast_signedUnits]
  cases s with
  | false => rfl
  | true => rw [if_pos rfl, if_pos rfl, neg_div, neg_div, neg_sub_neg, abs_sub_comm]

theorem abs_nearest_sub (u : Nat) :
    |(nearest u : ℚ) - u / unitsPerOne| = distance u / unitsPerOne := by
  have hpos := cast_unitsPerOne_pos
  have hdistance : (distance u : ℚ) = |(nearest u : ℚ) * unitsPerOne - u| := by
    unfold distance
    rcases Nat.le_total u (nearest u * unitsPerOne) with hle | hle
    · have hcast : (u : ℚ) ≤ (nearest u : ℚ) * unitsPerOne := by exact_mod_cast hle
      rw [Nat.sub_eq_zero_of_le hle, Nat.zero_add, Nat.cast_sub hle, Nat.cast_mul,
        abs_of_nonneg (sub_nonneg.2 hcast)]
    · have hcast : (nearest u : ℚ) * unitsPerOne ≤ u := by exact_mod_cast hle
      rw [Nat.sub_eq_zero_of_le hle, Nat.add_zero, Nat.cast_sub hle, Nat.cast_mul, abs_sub_comm,
        abs_of_nonneg (sub_nonneg.2 hcast)]
  calc |(nearest u : ℚ) - u / unitsPerOne|
      = |((nearest u : ℚ) * unitsPerOne - u) / unitsPerOne| := by
        rw [sub_div, mul_div_cancel_right₀ _ hpos.ne']
    _ = distance u / unitsPerOne := by rw [abs_div, abs_of_pos hpos, hdistance]

/-- The nearest integer, with the sign of the number, is as far away as the magnitudes are. -/
theorem abs_signedUnits_nearest_sub (s : Bool) {u : Nat} (h : Representable u) :
    |((signedUnits s (nearest u) : Int) : ℚ) - (Double.finite s u h).toRat| =
      distance u / unitsPerOne := by
  have hsigned := abs_signedUnits_sub s (nearest u) u 1 unitsPerOne
  rw [div_one, div_one] at hsigned
  exact hsigned.trans (abs_nearest_sub u)

/-- No integer is nearer to a number than one that is at most one half away. -/
theorem abs_sub_le_of_le_half {q : ℚ} {k : Int} (h : |(k : ℚ) - q| ≤ 1 / 2) (m : Int) :
    |(k : ℚ) - q| ≤ |(m : ℚ) - q| := by
  by_cases heq : k = m
  · rw [heq]
  · -- two integers are at least one apart
    have hint : (1 : Int) ≤ |k - m| := Int.one_le_abs (sub_ne_zero.2 heq)
    have hone : (1 : ℚ) ≤ |(k : ℚ) - m| := by exact_mod_cast hint
    have htriangle := abs_sub_le (k : ℚ) q m
    rw [abs_sub_comm q] at htriangle
    linarith

/-- Rounding to a number of places is off by at most half of the last place. -/
theorem abs_round_sub_le (places u : Nat) :
    |(roundHalfEven (u * pow10 places) unitsPerOne : ℚ) / 10 ^ places - u / unitsPerOne| ≤
      1 / (2 * 10 ^ places) := by
  have hpos := cast_unitsPerOne_pos
  have hten : (0 : ℚ) < 10 ^ places := by positivity
  obtain ⟨hup, hdown⟩ := roundHalfEven_near (u * pow10 places) unitsPerOne_pos
  set rounded := roundHalfEven (u * pow10 places) unitsPerOne
  have hupper : 2 * ((rounded : ℚ) * unitsPerOne) ≤ 2 * (u * 10 ^ places) + unitsPerOne := by
    rw [← cast_pow10]
    exact_mod_cast hup
  have hlower : 2 * ((u : ℚ) * 10 ^ places) ≤ 2 * (rounded * unitsPerOne) + unitsPerOne := by
    rw [← cast_pow10]
    exact_mod_cast hdown
  have hscaled : |(rounded : ℚ) * unitsPerOne - u * 10 ^ places| ≤ unitsPerOne / 2 :=
    abs_le.2 ⟨by linarith, by linarith⟩
  calc |(rounded : ℚ) / 10 ^ places - u / unitsPerOne|
      = |(rounded : ℚ) * unitsPerOne - u * 10 ^ places| / (10 ^ places * unitsPerOne) := by
        rw [div_sub_div _ _ hten.ne' hpos.ne', abs_div, abs_of_pos (mul_pos hten hpos),
          mul_comm (10 ^ places) (u : ℚ)]
    _ ≤ unitsPerOne / 2 / (10 ^ places * unitsPerOne) :=
        div_le_div_of_nonneg_right hscaled (mul_pos hten hpos).le
    _ = 1 / (2 * 10 ^ places) := by
        field_simp

end Distances

end DeskCalc
