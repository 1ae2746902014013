import DeskCalc.Proofs.Double.Decimal

set_option autoImplicit false

/-! # Bounds on magnitudes

`x.Below k` says that the magnitude of `x` is at most `2^k`, and `x.Above k` that it is at least
`2^-k` unless `x` is zero. Both bounds are doubles, so rounding does not cross them, and the bounds
of exact arithmetic hold of sums, products and quotients as they are computed. As long as the bound
is below `2^1024` the result is finite.
-/

namespace DeskCalc

theorem pow10_le_pow2 (n : Nat) : pow10 n ≤ pow2 (4 * n) := by
  induction n with
  | zero => exact Nat.le_refl 1
  | succ n ih =>
      have hsixteen : pow2 4 = 16 := rfl
      rw [Nat.mul_add, Nat.mul_one, pow2_add, pow10_succ, hsixteen]
      exact Nat.mul_le_mul ih (by omega)

namespace Double

/-- The magnitude is at most `2^k`. -/
def Below (x : Double) (k : Nat) : Prop :=
  ∃ (s : Bool) (u : Nat) (h : Representable u), x = .finite s u h ∧ u ≤ pow2 k * unitsPerOne

/-- The magnitude is zero or at least `2^-k`. -/
def Above (x : Double) (k : Nat) : Prop :=
  ∃ (s : Bool) (u : Nat) (h : Representable u),
    x = .finite s u h ∧ (u = 0 ∨ unitsPerOne ≤ u * pow2 k)

theorem Below.isFinite {x : Double} {k : Nat} (h : x.Below k) : x.isFinite = true := by
  obtain ⟨s, u, hu, rfl, -⟩ := h
  rfl

theorem Below.mono {x : Double} {j k : Nat} (h : x.Below j) (hjk : j ≤ k) : x.Below k := by
  obtain ⟨s, u, hu, rfl, hle⟩ := h
  exact ⟨s, u, hu, rfl, Nat.le_trans hle (Nat.mul_le_mul_right _ (pow2_le_pow2 hjk))⟩

theorem Above.mono {x : Double} {j k : Nat} (h : x.Above j) (hjk : j ≤ k) : x.Above k := by
  obtain ⟨s, u, hu, rfl, hle⟩ := h
  refine ⟨s, u, hu, rfl, ?_⟩
  rcases hle with hzero | hle
  · exact Or.inl hzero
  · exact Or.inr (Nat.le_trans hle (Nat.mul_le_mul_left _ (pow2_le_pow2 hjk)))

theorem Below.neg {x : Double} {k : Nat} (h : x.Below k) : x.neg.Below k := by
  obtain ⟨s, u, hu, rfl, hle⟩ := h
  exact ⟨!s, u, hu, rfl, hle⟩

theorem representable_pow2_mul_unitsPerOne {k : Nat} (h : k < 1024) :
    Representable (pow2 k * unitsPerOne) := by
  rw [unitsPerOne_eq, ← pow2_add]
  exact representable_pow2 (by omega)

/-- Rounding does not go beyond a power of two. -/
theorem below_ofUnitRatio (negative : Bool) {num den k : Nat}
    (h : num ≤ pow2 k * unitsPerOne * den) (hden : 0 < den) (hk : k < 1024) :
    (ofUnitRatio negative num den).Below k := by
  obtain ⟨u, hu, hfinite, -, hle⟩ := exists_ofUnitRatio_eq_finite negative h
    (representable_pow2_mul_unitsPerOne hk) hden
  exact ⟨negative, u, hu, hfinite, hle⟩

/-! ## Operations -/

section Operations

variable {x y : Double} {j k : Nat}

theorem Below.mul (hx : x.Below j) (hy : y.Below k) (h : j + k < 1024) :
    (x.mul y).Below (j + k) := by
  obtain ⟨s, u, hu, rfl, hxle⟩ := hx
  obtain ⟨t, v, hv, rfl, hyle⟩ := hy
  refine below_ofUnitRatio (s ^^ t) ?_ unitsPerOne_pos h
  calc u * v ≤ pow2 j * unitsPerOne * (pow2 k * unitsPerOne) := Nat.mul_le_mul hxle hyle
    _ = pow2 (j + k) * unitsPerOne * unitsPerOne := by
        rw [pow2_add]
        ring

/-- A divisor that is not too small makes the quotient not too large. -/
theorem Below.div (hx : x.Below j) (hy : y.Above k) (hzero : ∀ negative, y ≠ .zero negative)
    (h : j + k < 1024) : (x.div y).Below (j + k) := by
  obtain ⟨s, u, hu, rfl, hxle⟩ := hx
  obtain ⟨t, v, hv, rfl, hyle⟩ := hy
  have hv0 : v ≠ 0 := by
    intro hv0
    subst hv0
    exact hzero t rfl
  have hyle : unitsPerOne ≤ v * pow2 k := hyle.resolve_left hv0
  have hdiv : (finite s u hu).div (finite t v hv) =
      ofUnitRatio (s ^^ t) (u * unitsPerOne) v := if_neg hv0
  rw [hdiv]
  refine below_ofUnitRatio (s ^^ t) ?_ (Nat.pos_of_ne_zero hv0) h
  calc u * unitsPerOne ≤ pow2 j * unitsPerOne * (v * pow2 k) := Nat.mul_le_mul hxle hyle
    _ = pow2 (j + k) * unitsPerOne * v := by
        rw [pow2_add]
        ring

theorem Below.add (hx : x.Below j) (hy : y.Below k) (h : j + k + 1 < 1024) :
    (x.add y).Below (j + k + 1) := by
  obtain ⟨s, u, hu, rfl, hxle⟩ := hx
  obtain ⟨t, v, hv, rfl, hyle⟩ := hy
  have hleft : pow2 j ≤ pow2 (j + k) := pow2_le_pow2 (by omega)
  have hright : pow2 k ≤ pow2 (j + k) := pow2_le_pow2 (by omega)
  have htotal : (signedUnits s u + signedUnits t v).natAbs ≤ pow2 (j + k + 1) * unitsPerOne := by
    have hsum : (signedUnits s u + signedUnits t v).natAbs ≤ u + v := by
      unfold signedUnits
      split_ifs <;> omega
    have hu' := Nat.le_trans hxle (Nat.mul_le_mul_right unitsPerOne hleft)
    have hv' := Nat.le_trans hyle (Nat.mul_le_mul_right unitsPerOne hright)
    have hdouble : pow2 (j + k + 1) * unitsPerOne =
        pow2 (j + k) * unitsPerOne + pow2 (j + k) * unitsPerOne := by
      rw [pow2_succ]
      ring
    omega
  show Below (if signedUnits s u + signedUnits t v = 0 then zero (s && t)
    else ofUnits (decide (signedUnits s u + signedUnits t v < 0))
      (signedUnits s u + signedUnits t v).natAbs) _
  split_ifs
  · exact ⟨s && t, 0, representable_zero, rfl, Nat.zero_le _⟩
  · exact below_ofUnitRatio _ (by rwa [Nat.mul_one]) Nat.one_pos h

theorem Below.sub (hx : x.Below j) (hy : y.Below k) (h : j + k + 1 < 1024) :
    (x.sub y).Below (j + k + 1) := hx.add hy.neg h

end Operations

/-! ## Numbers of few digits -/

section Decimals

variable {m n places : Nat}

theorem mul_unitsPerOne_le (hm : m < pow10 n) (places : Nat) :
    m * unitsPerOne ≤ pow2 (4 * n) * unitsPerOne * pow10 places := by
  have hbits : m ≤ pow2 (4 * n) := Nat.le_trans (Nat.le_of_lt hm) (pow10_le_pow2 n)
  calc m * unitsPerOne ≤ pow2 (4 * n) * unitsPerOne := Nat.mul_le_mul_right _ hbits
    _ ≤ pow2 (4 * n) * unitsPerOne * pow10 places := Nat.le_mul_of_pos_right _ (pow10_pos places)

theorem below_ofDecimal (negative : Bool) (hm : m < pow10 n) (hn : 4 * n < 1024) :
    (ofDecimal negative ⟨m, -(places : Int)⟩).Below (4 * n) := by
  rw [ofDecimal_neg]
  exact below_ofUnitRatio negative (mul_unitsPerOne_le hm places) (pow10_pos places) hn

/-- A decimal of few places is zero or not too small. -/
theorem above_ofDecimal (negative : Bool) (hm : m < pow10 n) (hplaces : places ≤ n)
    (hn : 4 * n < 1024) : (ofDecimal negative ⟨m, -(places : Int)⟩).Above (4 * n) := by
  by_cases hzero : m = 0
  · rw [hzero, ofDecimal_zero]
    exact ⟨negative, 0, representable_zero, rfl, Or.inl rfl⟩
  · obtain ⟨u, hu, hfinite, hround, -⟩ := exists_ofUnitRatio_eq_finite negative
      (mul_unitsPerOne_le hm places) (representable_pow2_mul_unitsPerOne hn) (pow10_pos places)
    rw [ofDecimal_neg, hfinite]
    refine ⟨negative, u, hu, rfl, Or.inr ?_⟩
    -- the least number of units that is allowed is itself a power of two
    have hscale : pow2 (1074 - 4 * n) * pow2 (4 * n) = unitsPerOne := by
      rw [← pow2_add, unitsPerOne_eq]
      congr 1
      omega
    have hpower : pow10 places ≤ pow2 (4 * n) :=
      Nat.le_trans (pow10_le_pow2 places) (pow2_le_pow2 (by omega))
    have hleast : pow2 (1074 - 4 * n) * pow10 places ≤ m * unitsPerOne := by
      calc pow2 (1074 - 4 * n) * pow10 places
          ≤ pow2 (1074 - 4 * n) * pow2 (4 * n) := Nat.mul_le_mul_left _ hpower
        _ = unitsPerOne := hscale
        _ ≤ m * unitsPerOne := Nat.le_mul_of_pos_left _ (Nat.pos_of_ne_zero hzero)
    have hle := le_roundSignificand hleast (pow2_log2_sub_dvd_pow2 _) (pow10_pos places)
    calc unitsPerOne = pow2 (1074 - 4 * n) * pow2 (4 * n) := hscale.symm
      _ ≤ u * pow2 (4 * n) := Nat.mul_le_mul_right _ (hround ▸ hle)

end Decimals

end Double

end DeskCalc
