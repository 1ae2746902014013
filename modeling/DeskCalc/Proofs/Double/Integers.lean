import Mathlib.Algebra.Order.Ring.Int
import DeskCalc.Proofs.Double.Exact

set_option autoImplicit false

/-! # Integers among the doubles

A double is an integer (`IsInt`) if its units are that many times the units of one; zero is so
with either sign. Every integer of magnitude at most `2^53` is a double. So sums, differences and
products of integers are exact as long as the exact result is of such a magnitude.
-/

namespace DeskCalc.Double

/-! ## Signed units -/

theorem natAbs_signedUnits (s : Bool) (u : Nat) : (signedUnits s u).natAbs = u := by
  cases s with
  | false => exact Int.natAbs_natCast u
  | true => exact (Int.natAbs_neg _).trans (Int.natAbs_natCast u)

theorem signedUnits_mul (s t : Bool) (u v : Nat) :
    signedUnits (s ^^ t) (u * v) = signedUnits s u * signedUnits t v := by
  cases s <;> cases t <;> simp [signedUnits]

theorem signedUnits_not (s : Bool) (u : Nat) : signedUnits (!s) u = -signedUnits s u := by
  cases s <;> simp [signedUnits]

theorem signedUnits_mul_natCast (s : Bool) (m n : Nat) :
    signedUnits s (m * n) = signedUnits s m * n := by
  have hmul := signedUnits_mul s false m n
  rwa [Bool.xor_false] at hmul

/-- A number is its sign and its magnitude. -/
theorem signedUnits_natAbs (n : Int) : signedUnits (decide (n < 0)) n.natAbs = n := by
  unfold signedUnits
  by_cases h : n < 0
  · rw [if_pos (decide_eq_true h)]
    omega
  · rw [if_neg (by simpa using h)]
    omega

/-! ## Integers -/

/-- The double has the value of an integer. -/
def IsInt (x : Double) (n : Int) : Prop :=
  ∃ (s : Bool) (u : Nat) (h : Representable u),
    x = .finite s u h ∧ signedUnits s u = n * unitsPerOne

/-- The magnitude is at most `2^53`; all integers up to there are doubles. -/
def IsExact (n : Int) : Prop := n.natAbs ≤ pow2 53

instance (n : Int) : Decidable (IsExact n) := inferInstanceAs (Decidable (_ ≤ _))

theorem representable_mul_unitsPerOne {n : Nat} (h : n ≤ pow2 53) :
    Representable (n * unitsPerOne) := by
  rw [unitsPerOne_eq]
  refine ⟨?_, pow2_log2_sub_dvd_mul_pow2 h 1074⟩
  calc n * pow2 1074 ≤ pow2 53 * pow2 1074 := Nat.mul_le_mul_right _ h
    _ = pow2 1127 := (pow2_add 53 1074).symm
    _ < pow2 2098 := pow2_lt_pow2 (by omega)
    _ = unitLimit := unitLimit_eq.symm

/-- The units of an integer are its magnitude times those of one. -/
theorem isInt_iff {x : Double} {n : Int} :
    x.IsInt n ↔ ∃ (s : Bool) (h : Representable (n.natAbs * unitsPerOne)),
      x = .finite s (n.natAbs * unitsPerOne) h ∧ signedUnits s n.natAbs = n := by
  constructor
  · rintro ⟨s, u, h, rfl, hvalue⟩
    have hunits : u = n.natAbs * unitsPerOne := by
      have hnatAbs := congrArg Int.natAbs hvalue
      rwa [natAbs_signedUnits, Int.natAbs_mul, Int.natAbs_natCast] at hnatAbs
    subst hunits
    rw [signedUnits_mul_natCast] at hvalue
    have hone : (unitsPerOne : Int) ≠ 0 := Int.natCast_ne_zero.2 unitsPerOne_pos.ne'
    exact ⟨s, h, rfl, mul_right_cancel₀ hone hvalue⟩
  · rintro ⟨s, h, rfl, hsign⟩
    exact ⟨s, _, h, rfl, by rw [signedUnits_mul_natCast, hsign]⟩

theorem IsInt.isFinite {x : Double} {n : Int} (h : x.IsInt n) : x.isFinite = true := by
  obtain ⟨s, u, hu, rfl, -⟩ := h
  rfl

theorem isInt_ofUnits {s : Bool} {k : Nat} (h : k ≤ pow2 53) :
    (ofUnits s (k * unitsPerOne)).IsInt (signedUnits s k) := by
  refine isInt_iff.2 ⟨s, ?_, ?_, ?_⟩
  · rw [natAbs_signedUnits]
    exact representable_mul_unitsPerOne h
  · rw [ofUnits_eq s (representable_mul_unitsPerOne h)]
    simp only [natAbs_signedUnits]
  · rw [natAbs_signedUnits]

/-! ## Exact operations -/

section Operations

variable {x y : Double} {m n : Int}

theorem IsInt.neg (h : x.IsInt n) : x.neg.IsInt (-n) := by
  obtain ⟨s, u, hu, rfl, hvalue⟩ := h
  refine ⟨!s, u, hu, rfl, ?_⟩
  rw [signedUnits_not, hvalue, Int.neg_mul]

theorem IsInt.add (hx : x.IsInt m) (hy : y.IsInt n) (hexact : IsExact (m + n)) :
    (x.add y).IsInt (m + n) := by
  obtain ⟨s, u, hu, rfl, hm⟩ := hx
  obtain ⟨t, v, hv, rfl, hn⟩ := hy
  have htotal : signedUnits s u + signedUnits t v = (m + n) * unitsPerOne := by
    rw [hm, hn, Int.add_mul]
  have hnatAbs : ((m + n) * unitsPerOne : Int).natAbs = (m + n).natAbs * unitsPerOne := by
    rw [Int.natAbs_mul, Int.natAbs_natCast]
  have hunits : Representable ((m + n) * unitsPerOne : Int).natAbs := by
    rw [hnatAbs]
    exact representable_mul_unitsPerOne hexact
  show IsInt (if signedUnits s u + signedUnits t v = 0 then zero (s && t)
    else ofUnits (decide (signedUnits s u + signedUnits t v < 0))
      (signedUnits s u + signedUnits t v).natAbs) (m + n)
  rw [htotal]
  split
  · rename_i hzero
    refine ⟨s && t, 0, representable_zero, rfl, ?_⟩
    rw [hzero]
    cases s && t <;> rfl
  · rw [ofUnits_eq _ hunits]
    exact ⟨_, _, hunits, rfl, signedUnits_natAbs _⟩

theorem IsInt.sub (hx : x.IsInt m) (hy : y.IsInt n) (hexact : IsExact (m - n)) :
    (x.sub y).IsInt (m - n) := hx.add hy.neg hexact

theorem IsInt.mul (hx : x.IsInt m) (hy : y.IsInt n) (hexact : IsExact (m * n)) :
    (x.mul y).IsInt (m * n) := by
  obtain ⟨s, hu, rfl, hm⟩ := isInt_iff.1 hx
  obtain ⟨t, hv, rfl, hn⟩ := isInt_iff.1 hy
  have hunits : Representable ((m * n).natAbs * unitsPerOne) :=
    representable_mul_unitsPerOne hexact
  have hproduct : m.natAbs * unitsPerOne * (n.natAbs * unitsPerOne) =
      (m * n).natAbs * unitsPerOne * unitsPerOne := by
    rw [Int.natAbs_mul]
    ring
  refine isInt_iff.2 ⟨s ^^ t, hunits, ?_, ?_⟩
  · show ofUnitRatio (s ^^ t) _ unitsPerOne = _
    rw [hproduct, ofUnitRatio_mul_right _ hunits unitsPerOne_pos]
  · rw [Int.natAbs_mul, signedUnits_mul, hm, hn]

end Operations

end DeskCalc.Double
