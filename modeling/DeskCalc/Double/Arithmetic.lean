import DeskCalc.Double.Bits

set_option autoImplicit false

/-! # Arithmetic of doubles

Each operation takes the exact result on units and rounds it once. What has no exact result
follows the usual rules: infinities keep their sign through a finite operand, a difference of
infinities, zero times infinity and the two indefinite quotients are NaN, and NaN absorbs
everything. An exact sum of zero is `+0`, unless both terms are negative.
-/

namespace DeskCalc.Double

/-- The sum. -/
def add : Double → Double → Double
  | .finite s u _, .finite t v _ =>
      let total := signedUnits s u + signedUnits t v
      -- opposite terms leave `+0`, and so do zeros unless both are negative
      if total = 0 then zero (s && t) else ofUnits (decide (total < 0)) total.natAbs
  | .nan, _ => .nan
  | _, .nan => .nan
  | .infinite s, .infinite t => if s = t then .infinite s else .nan
  | .infinite s, .finite _ _ _ => .infinite s
  | .finite _ _ _, .infinite t => .infinite t

/-- The difference, which is the sum with the negated second term. -/
def sub (x y : Double) : Double := x.add y.neg

/-- The product. -/
def mul : Double → Double → Double
  | .finite s u _, .finite t v _ => ofUnitRatio (s ^^ t) (u * v) unitsPerOne
  | .nan, _ => .nan
  | _, .nan => .nan
  | .infinite s, .infinite t => .infinite (s ^^ t)
  | .infinite s, .finite t v _ => if v = 0 then .nan else .infinite (s ^^ t)
  | .finite s u _, .infinite t => if u = 0 then .nan else .infinite (s ^^ t)

/-- The quotient. -/
def div : Double → Double → Double
  | .finite s u _, .finite t v _ =>
      if v = 0 then
        if u = 0 then .nan else .infinite (s ^^ t)
      else
        ofUnitRatio (s ^^ t) (u * unitsPerOne) v
  | .nan, _ => .nan
  | _, .nan => .nan
  | .infinite _, .infinite _ => .nan
  | .infinite s, .finite t _ _ => .infinite (s ^^ t)
  | .finite s _ _, .infinite t => zero (s ^^ t)

/-! ## Signs of products and quotients -/

/-- The sign of the first factor goes through a product. -/
theorem neg_mul (x y : Double) : x.neg.mul y = (x.mul y).neg := by
  match x, y with
  | .finite s u _, .finite t v _ =>
      show ofUnitRatio (!s ^^ t) _ _ = (ofUnitRatio (s ^^ t) _ _).neg
      rw [neg_ofUnitRatio, Bool.not_xor]
  | .finite s u _, .infinite t =>
      show (if u = 0 then nan else infinite (!s ^^ t))
        = neg (if u = 0 then nan else infinite (s ^^ t))
      split <;> simp
  | .infinite s, .finite t v _ =>
      show (if v = 0 then nan else infinite (!s ^^ t))
        = neg (if v = 0 then nan else infinite (s ^^ t))
      split <;> simp
  | .infinite s, .infinite t => simp [mul]
  | .nan, _ => simp [mul]
  | .finite _ _ _, .nan => simp [mul]
  | .infinite _, .nan => simp [mul]

/-- The sign of the dividend goes through a quotient. -/
theorem neg_div (x y : Double) : x.neg.div y = (x.div y).neg := by
  match x, y with
  | .finite s u _, .finite t v _ =>
      show (if v = 0 then (if u = 0 then nan else infinite (!s ^^ t))
          else ofUnitRatio (!s ^^ t) _ _)
        = neg (if v = 0 then (if u = 0 then nan else infinite (s ^^ t))
          else ofUnitRatio (s ^^ t) _ _)
      split
      · split <;> simp
      · rw [neg_ofUnitRatio, Bool.not_xor]
  | .finite s u _, .infinite t => simp [div]
  | .infinite s, .finite t v _ => simp [div]
  | .infinite s, .infinite t => simp [div]
  | .nan, _ => simp [div]
  | .finite _ _ _, .nan => simp [div]
  | .infinite _, .nan => simp [div]

end DeskCalc.Double
