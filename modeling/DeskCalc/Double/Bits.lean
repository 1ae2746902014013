import DeskCalc.Rounding

set_option autoImplicit false

/-! # Double-precision numbers

A finite double is a sign and a whole number of *units*, the unit being the least positive
double, `2^-1074`. The number of units has at most 53 significant bits and is less than
`2^2098` (`Representable`); a double carries the proof of that, so that two finite doubles
are equal exactly when their signs and units are. Zero has a sign, and there is one NaN.

All arithmetic is exact arithmetic on units followed by one rounding (`ofUnitRatio`): to 53
significant bits, a half to the even neighbour, and to infinity from `2^2098` units on.
-/

namespace DeskCalc

/-! ## Representable magnitudes -/

/-- The least number of units too large for a finite double. -/
@[irreducible] def unitLimit : Nat := pow2 2098

theorem unitLimit_eq : unitLimit = pow2 2098 := by
  unfold unitLimit
  rfl

theorem unitLimit_pos : 0 < unitLimit := unitLimit_eq ▸ pow2_pos 2098

/-- The magnitudes of finite doubles, in units: below `2^2098`, and with nothing but zeros
after the first 53 bits. -/
def Representable (units : Nat) : Prop :=
  units < unitLimit ∧ pow2 (units.log2 - 52) ∣ units

instance (units : Nat) : Decidable (Representable units) :=
  inferInstanceAs (Decidable (_ ∧ _))

theorem representable_zero : Representable 0 :=
  ⟨unitLimit_pos, Nat.dvd_zero _⟩

/-- The quotient `num / den` rounded to 53 significant bits. -/
def roundSignificand (num den : Nat) : Nat :=
  let shift := (num / den).log2 - 52
  roundHalfEven num (den * pow2 shift) * pow2 shift

/-- A number of at most 53 bits, shifted left, keeps at most 53 significant bits. -/
theorem pow2_log2_sub_dvd_mul_pow2 {r : Nat} (hr : r ≤ pow2 53) (shift : Nat) :
    pow2 ((r * pow2 shift).log2 - 52) ∣ r * pow2 shift := by
  by_cases h0 : r = 0
  · rw [h0, Nat.zero_mul]
    exact Nat.dvd_zero _
  have hpos : r * pow2 shift ≠ 0 := Nat.mul_ne_zero h0 (Nat.ne_of_gt (pow2_pos shift))
  rcases Nat.lt_or_eq_of_le hr with hlt | heq
  · have hlog : (r * pow2 shift).log2 < 53 + shift := by
      rw [log2_lt_iff_lt_pow2 hpos, pow2_add]
      exact Nat.mul_lt_mul_of_pos_right hlt (pow2_pos shift)
    exact Nat.dvd_trans (pow2_dvd_pow2 (by omega)) (Nat.dvd_mul_left _ _)
  · rw [heq, ← pow2_add, log2_pow2]
    exact pow2_dvd_pow2 (by omega)

/-- The quotient, shifted right until 53 bits are left, is at most `2^53` once rounded. -/
theorem roundHalfEven_shifted_le (num den : Nat) :
    roundHalfEven num (den * pow2 ((num / den).log2 - 52)) ≤ pow2 53 := by
  refine Nat.le_trans (roundHalfEven_le_succ _ _) ?_
  rw [← Nat.div_div_eq_div_mul]
  have hmul : num / den < pow2 53 * pow2 ((num / den).log2 - 52) := by
    rw [← pow2_add]
    exact Nat.lt_of_lt_of_le (lt_pow2_log2_succ _) (pow2_le_pow2 (by omega))
  exact (Nat.div_lt_iff_lt_mul (pow2_pos _)).2 hmul

theorem pow2_dvd_roundSignificand (num den : Nat) :
    pow2 ((roundSignificand num den).log2 - 52) ∣ roundSignificand num den :=
  pow2_log2_sub_dvd_mul_pow2 (roundHalfEven_shifted_le num den) _

/-! ## Doubles -/

/-- A double-precision number. -/
inductive Double where
  | finite (negative : Bool) (units : Nat) (representable : Representable units)
  | infinite (negative : Bool)
  | nan
  deriving DecidableEq

namespace Double

/-- The number of units in one. -/
@[irreducible] def unitsPerOne : Nat := pow2 1074

theorem unitsPerOne_eq : unitsPerOne = pow2 1074 := by
  unfold unitsPerOne
  rfl

/-- The double nearest to `num / den` units, with the given sign. -/
def ofUnitRatio (negative : Bool) (num den : Nat) : Double :=
  let units := roundSignificand num den
  if h : units < unitLimit then
    .finite negative units ⟨h, pow2_dvd_roundSignificand num den⟩
  else
    .infinite negative

/-- The double nearest to a number of units. -/
def ofUnits (negative : Bool) (units : Nat) : Double := ofUnitRatio negative units 1

/-- Zero, with a sign. -/
def zero (negative : Bool) : Double := .finite negative 0 representable_zero

/-- The double nearest to an integer. -/
def ofInt (n : Int) : Double := ofUnits (decide (n < 0)) (n.natAbs * unitsPerOne)

instance : Inhabited Double := ⟨zero false⟩

/-! ## Sign, magnitude and order -/

/-- Neither an infinity nor NaN. -/
def isFinite : Double → Bool
  | .finite _ _ _ => true
  | _ => false

/-- The number with the other sign. -/
def neg : Double → Double
  | .finite s u h => .finite (!s) u h
  | .infinite s => .infinite (!s)
  | .nan => .nan

/-- The number without its sign. -/
def abs : Double → Double
  | .finite _ u h => .finite false u h
  | .infinite _ => .infinite false
  | .nan => .nan

/-- The number negated when the flag is set. -/
def negateIf (negative : Bool) (x : Double) : Double := if negative then x.neg else x

/-- A sign and a number of units as an integer; both zeros are `0`. -/
def signedUnits (negative : Bool) (units : Nat) : Int :=
  if negative then -(units : Int) else units

/-- Strictly less. NaN is neither less nor greater than anything. -/
def lt : Double → Double → Bool
  | .finite s u _, .finite t v _ => decide (signedUnits s u < signedUnits t v)
  | .finite _ _ _, .infinite t => !t
  | .infinite s, .finite _ _ _ => s
  | .infinite s, .infinite t => s && !t
  | _, _ => false

@[simp] theorem neg_finite (s : Bool) (u : Nat) (h : Representable u) :
    (finite s u h).neg = finite (!s) u h := rfl

@[simp] theorem neg_infinite (s : Bool) : (infinite s).neg = infinite (!s) := rfl

@[simp] theorem neg_nan : nan.neg = nan := rfl

@[simp] theorem neg_zero (s : Bool) : (zero s).neg = zero (!s) := rfl

theorem neg_ofUnitRatio (s : Bool) (num den : Nat) :
    (ofUnitRatio s num den).neg = ofUnitRatio (!s) num den := by
  unfold ofUnitRatio
  dsimp only
  split
  · exact neg_finite s _ _
  · exact neg_infinite s

@[simp] theorem abs_zero (s : Bool) : (zero s).abs = zero false := by
  cases s <;> rfl

@[simp] theorem isFinite_neg (x : Double) : x.neg.isFinite = x.isFinite := by
  cases x <;> rfl

/-! ## Interchange bits

The 64-bit form: one sign bit, eleven exponent bits, fifty-two fraction bits. With the
exponent field `e` and the fraction field `f`, the magnitude is `f` units when `e = 0` and
`(2^52 + f) * 2^(e-1)` units when `0 < e < 2047`; the field `2047` marks the infinities and
NaN. The one NaN is written as the quiet NaN without payload.
-/

/-- The double with the given 64 bits; bits above the lowest 64 are ignored. -/
def ofBits (bits : Nat) : Double :=
  let negative := decide (bits / pow2 63 % 2 = 1)
  let exponent := bits / pow2 52 % pow2 11
  let fraction := bits % pow2 52
  if exponent = 2047 then
    if fraction = 0 then .infinite negative else .nan
  else if exponent = 0 then
    ofUnits negative fraction
  else
    ofUnits negative ((pow2 52 + fraction) * pow2 (exponent - 1))

/-- The sign bit in its place. -/
def signBit (negative : Bool) : Nat := if negative then pow2 63 else 0

/-- The 64 bits of a double. The fields of a finite double are one number: an exponent
field above the least one adds `2^52` for each shift, and the leading bit carries into the
field by itself. -/
def toBits : Double → Nat
  | .finite s u _ =>
      let shift := u.log2 - 52
      signBit s + shift * pow2 52 + u / pow2 shift
  | .infinite s => signBit s + 2047 * pow2 52
  | .nan => 2047 * pow2 52 + pow2 51

end Double

end DeskCalc
