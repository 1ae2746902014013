import DeskCalc.Double.Bits
import DeskCalc.Text.Digits

set_option autoImplicit false

/-! # Decimals and doubles

A decimal is read as the double nearest to it. A double is written with the digits of the
shortest decimal that reads back as that double.
-/

namespace DeskCalc

/-! ## Reading decimals

A decimal is a significand and a power of ten. It is read as the double nearest to its exact
value (`ofDecimal`), whatever the number of its digits. `ofScientific` is the same function,
computed without large powers when the value is out of range of every double.
-/

/-- The decimal number `significand * 10 ^ exponent`. -/
structure Decimal where
  significand : Nat
  exponent : Int
  deriving DecidableEq, Repr

namespace Double

/-- The double nearest to a decimal, with the given sign. -/
def ofDecimal (negative : Bool) (d : Decimal) : Double :=
  match d.exponent with
  | .ofNat k => ofUnitRatio negative (d.significand * pow10 k * unitsPerOne) 1
  | .negSucc k => ofUnitRatio negative (d.significand * unitsPerOne) (pow10 (k + 1))

/-- The double nearest to a decimal whose exponent may be of any size. Above `10^400` every
magnitude is infinite, and below `10^-400` every magnitude is zero. -/
def ofScientific (negative : Bool) (d : Decimal) : Double :=
  if d.significand = 0 then zero negative
  else if 400 < d.exponent then .infinite negative
  else if d.exponent + d.significand.log2 < -400 then zero negative
  else ofDecimal negative d

/-! ## The shortest decimal

Of all decimals that read back as a given magnitude, `shortest` takes one with the fewest
significant digits, and of those the nearest to the exact value. For one digit, two digits
and so on it looks at the neighbours of the value on that decimal grid and tests by reading
them. Seventeen digits are enough for every double; the exact decimal expansion stands behind
the search, so that the answer reads back in any case.
-/

/-- A number of units divided by `10 ^ exponent`, as a fraction. -/
def scaled (units : Nat) (exponent : Int) : Nat × Nat :=
  match exponent with
  | .ofNat k => (units, unitsPerOne * pow10 k)
  | .negSucc k => (units * pow10 (k + 1), unitsPerOne)

/-- The neighbours of a magnitude on the grid of step `10 ^ exponent`, the nearest first. -/
def neighbours (units : Nat) (exponent : Int) : List Decimal :=
  let (num, den) := scaled units exponent
  [⟨roundHalfEven num den, exponent⟩, ⟨num / den, exponent⟩, ⟨num / den + 1, exponent⟩]

/-- The power of ten just above a magnitude: its leading digit stands one place below. The
least magnitude that is not zero is above `10^-324`. -/
def decimalPosition (units : Nat) : Int :=
  (Nat.toDigits 10 (units * pow10 324 / unitsPerOne)).length - 324

/-- The neighbours on the grids of one to seventeen digits. -/
def shortCandidates (units : Nat) : List Decimal :=
  (List.range 17).flatMap fun n => neighbours units (decimalPosition units - (n + 1 : Nat))

/-- The decimal reads back as the given magnitude. -/
def readsBack (units : Nat) (d : Decimal) : Bool :=
  match ofDecimal false d with
  | .finite _ u _ => u == units
  | _ => false

/-- The exact expansion of a number of units: a unit is `5^1074 * 10^-1074`. -/
def exactDecimal (units : Nat) : Decimal := ⟨units * Nat.pow 5 1074, -1074⟩

/-- The shortest decimal that reads back as the given magnitude. -/
def shortest (units : Nat) : Decimal :=
  ((shortCandidates units).find? (readsBack units)).getD (exactDecimal units)

/-! ## The text of a double

A double is written with the digits of its shortest decimal. If the leading digit stands for
`10^-4` to `10^15` the number is written out with at least one digit after the point, `5.0`
or `0.0001`; otherwise one digit stands before the point and a signed exponent of at least
two digits follows, `1e+16` or `1.5e-07`.
-/

/-- The exponents of the leading digit for which a number is written out. -/
def leastPositional : Int := -4

@[inherit_doc leastPositional]
def greatestPositional : Int := 15

/-- The digits written out, the point standing after the first `point` of them. -/
def positionalText (digits : List Char) (point : Int) : List Char :=
  if point ≤ 0 then
    '0' :: '.' :: (List.replicate (-point).toNat '0' ++ digits)
  else
    let whole := digits.take point.toNat
    let fraction := digits.drop point.toNat
    let zeros := List.replicate (point.toNat - digits.length) '0'
    whole ++ zeros ++ '.' :: (if fraction = [] then ['0'] else fraction)

/-- The sign and digits of an exponent, at least two digits. -/
def exponentText (exponent : Int) : List Char :=
  (if exponent < 0 then '-' else '+') :: Digits.padLeft 2 (Nat.toDigits 10 exponent.natAbs)

/-- The digits with the point after the first one and an exponent. -/
def scientificText (digits : List Char) (exponent : Int) : List Char :=
  match digits with
  | [] => []
  | lead :: rest =>
      lead :: ((if rest = [] then [] else '.' :: rest) ++ 'e' :: exponentText exponent)

/-- The text of a decimal. -/
def decimalText (d : Decimal) : List Char :=
  let all := Nat.toDigits 10 d.significand
  let digits := Digits.trimZeros all
  let leading := d.exponent + all.length - 1
  if d.significand = 0 then ['0', '.', '0']
  else if leastPositional ≤ leading ∧ leading ≤ greatestPositional then
    positionalText digits (leading + 1)
  else
    scientificText digits leading

/-- The text of a magnitude after its sign. -/
def signedText (negative : Bool) (magnitude : List Char) : List Char :=
  if negative then '-' :: magnitude else magnitude

/-- The characters of the text of a double. -/
def textChars : Double → List Char
  | .finite s u _ => signedText s (decimalText (shortest u))
  | .infinite s => signedText s ['i', 'n', 'f']
  | .nan => ['n', 'a', 'n']

/-- The text of a double. -/
def text (x : Double) : String := String.ofList x.textChars

end Double

end DeskCalc
