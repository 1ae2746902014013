set_option autoImplicit false

/-! # Powers and rounding

The scales of binary and of decimal numbers are powers of two and of ten. One rule of rounding
serves the whole library: a quotient of natural numbers goes to the nearest natural number, and a
quotient halfway between two of them goes to the even one. Binary numbers are rounded with it when
they are computed or read (`Double/Bits.lean`), decimals when they are shown (`Machine.lean`).
-/

namespace DeskCalc

/-! ## Powers of two and ten -/

/-- A power of two. -/
def pow2 (n : Nat) : Nat := Nat.pow 2 n

/-- A power of ten. -/
def pow10 (n : Nat) : Nat := Nat.pow 10 n

@[simp] theorem pow2_zero : pow2 0 = 1 := rfl

@[simp] theorem pow10_zero : pow10 0 = 1 := rfl

theorem pow2_succ (n : Nat) : pow2 (n + 1) = pow2 n * 2 := rfl

theorem pow10_succ (n : Nat) : pow10 (n + 1) = pow10 n * 10 := rfl

theorem pow2_add (m n : Nat) : pow2 (m + n) = pow2 m * pow2 n := Nat.pow_add 2 m n

theorem pow10_add (m n : Nat) : pow10 (m + n) = pow10 m * pow10 n := Nat.pow_add 10 m n

theorem pow2_pos (n : Nat) : 0 < pow2 n := Nat.two_pow_pos n

theorem pow10_pos (n : Nat) : 0 < pow10 n := Nat.pow_pos (by omega)

theorem pow2_le_pow2 {m n : Nat} (h : m ≤ n) : pow2 m ≤ pow2 n :=
  Nat.pow_le_pow_right (by omega) h

theorem pow10_le_pow10 {m n : Nat} (h : m ≤ n) : pow10 m ≤ pow10 n :=
  Nat.pow_le_pow_right (by omega) h

theorem pow2_dvd_pow2 {m n : Nat} (h : m ≤ n) : pow2 m ∣ pow2 n := Nat.pow_dvd_pow 2 h

theorem log2_pow2 (n : Nat) : (pow2 n).log2 = n := Nat.log2_two_pow

/-- A number that is not zero has at most `n` bits exactly when it is below `pow2 n`. -/
theorem log2_lt_iff_lt_pow2 {m n : Nat} (h : m ≠ 0) : m.log2 < n ↔ m < pow2 n := Nat.log2_lt h

theorem lt_pow2_log2_succ (m : Nat) : m < pow2 (m.log2 + 1) := Nat.lt_log2_self

/-! ## Rounding a quotient -/

/-- The quotient `num / den` rounded to the nearest natural number, a half to the even
neighbour. -/
def roundHalfEven (num den : Nat) : Nat :=
  let quotient := num / den
  let twice := 2 * (num % den)
  if twice < den ∨ (twice = den ∧ quotient % 2 = 0) then quotient else quotient + 1

theorem div_le_roundHalfEven (num den : Nat) : num / den ≤ roundHalfEven num den := by
  unfold roundHalfEven
  dsimp only
  split <;> omega

theorem roundHalfEven_le_succ (num den : Nat) : roundHalfEven num den ≤ num / den + 1 := by
  unfold roundHalfEven
  dsimp only
  split <;> omega

/-- An exact quotient is left alone. -/
theorem roundHalfEven_mul_right (n den : Nat) (h : 0 < den) :
    roundHalfEven (n * den) den = n := by
  unfold roundHalfEven
  dsimp only
  rw [Nat.mul_mod_left, Nat.mul_div_cancel n h, if_pos (Or.inl (by omega))]

end DeskCalc
