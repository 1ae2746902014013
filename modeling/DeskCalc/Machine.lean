import DeskCalc.Double.Arithmetic
import DeskCalc.Entry
import DeskCalc.Expression.Outcome

set_option autoImplicit false

/-! # The calculator

An entry line and the outcome that was last evaluated. The outcome stays on show while the
entry is edited, until it is evaluated again or everything is reset.
-/

namespace DeskCalc

/-! ## The result line

What a calculator shows of an outcome. A number within `10^-10` of an integer is shown as that
integer. Any other number is rounded to a limited number of places, a half to the even
neighbour, and shown without zeros at the end. A fault is shown as one fixed word.
-/

namespace Readout

/-- Numbers nearer than this to an integer are shown as that integer: `10^-10`. -/
def snapTolerance : Double := Double.ofDecimal false ⟨1, -10⟩

/-- The number of places after the point unless another is asked for. -/
def defaultPlaces : Int := 10

/-- The number of places that is used when `places` are asked for: between 0 and 15. -/
def clampPlaces (places : Int) : Nat := min places.toNat 15

/-- What is shown for a fault. -/
def faultText : String := "Error"

/-- The integer nearest to a finite double, a half to the even neighbour. -/
def nearestInteger (negative : Bool) (units : Nat) : Int :=
  Double.signedUnits negative (roundHalfEven units Double.unitsPerOne)

/-- A number of `10^-places`, written out without zeros at the end. -/
def trimmedFixed (places coefficient : Nat) : List Char :=
  let whole := Nat.toDigits 10 (coefficient / pow10 places)
  let fraction :=
    Digits.trimZeros (Digits.padLeft places (Nat.toDigits 10 (coefficient % pow10 places)))
  if fraction = [] then whole else whole ++ '.' :: fraction

/-- A finite double rounded to a number of places. A number that rounds to zero has no sign. -/
def fixed (negative : Bool) (units places : Nat) : List Char :=
  let coefficient := roundHalfEven (units * pow10 places) Double.unitsPerOne
  Double.signedText (negative && coefficient != 0) (trimmedFixed places coefficient)

/-- The characters shown for a number. -/
def numberChars (x : Double) (places : Int) : Except Breakdown (List Char) :=
  match x with
  | .finite s u _ =>
      let nearest := nearestInteger s u
      if (x.sub (Double.ofInt nearest)).abs.lt snapTolerance then .ok (Digits.ofInt nearest)
      else .ok (fixed s u (clampPlaces places))
  | .infinite _ => .error .infinityToInteger
  | .nan => .error .nanToInteger

end Readout

/-- The text shown for a number, with at most the given number of places. -/
def showNumber (x : Double) (places : Int) : Except Breakdown String :=
  (Readout.numberChars x places).map String.ofList

/-- The text shown for an outcome. -/
def showOutcome (o : Outcome) (places : Int) : Except Breakdown String :=
  match o with
  | .empty => .ok ""
  | .failure _ => .ok Readout.faultText
  | .value x => showNumber x places

/-! ## A calculator -/

/-- One calculator. -/
structure Machine where
  entry : Entry
  places : Int
  last : Outcome
  deriving DecidableEq

namespace Machine

/-- A calculator on which nothing has been typed. -/
def fresh (limit places : Int) : Machine := ⟨Entry.blank limit, places, .empty⟩

/-- The usual calculator. -/
def default : Machine := fresh Entry.defaultLimit Readout.defaultPlaces

/-- Entry and outcome are cleared. -/
def reset (m : Machine) : Machine := { m with entry := m.entry.reset, last := .empty }

/-- The calculator after a key; a key that is no edit does nothing. -/
def press (m : Machine) : Option Edit → Except Breakdown Machine
  | none => .ok m
  | some .evaluate => (evaluateEntry m.entry.text).map fun outcome => { m with last := outcome }
  | some .reset => .ok m.reset
  | some edit => .ok { m with entry := m.entry.apply edit }

/-- The text of the expression line. -/
def expression (m : Machine) : String := String.ofList m.entry.text

/-- The text of the result line. -/
def resultText (m : Machine) : Except Breakdown String := showOutcome m.last m.places

end Machine

end DeskCalc
