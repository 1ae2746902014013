import DeskCalc.Double.Text

set_option autoImplicit false

/-! # Outcomes of an evaluation

An evaluation ends in a value, in a fault of the expression, or with nothing because there was
nothing to evaluate. A fault is recorded by its cause; its kind, its position in the text and
its wording follow from the cause.
-/

namespace DeskCalc

/-- The kinds of fault. -/
inductive FaultKind where
  | malformed
  | divideByZero
  | overflow
  deriving DecidableEq, Repr

namespace FaultKind

/-- The name by which a kind is reported. -/
def name : FaultKind → String
  | .malformed => "malformed"
  | .divideByZero => "divide_by_zero"
  | .overflow => "overflow"

/-- The kind with the given name. -/
def ofName? (name : String) : Option FaultKind :=
  [FaultKind.malformed, .divideByZero, .overflow].find? (·.name == name)

end FaultKind

/-- Why an expression has no value. Positions count characters from zero. -/
inductive Fault where
  /-- The text ends after the sign at this position. -/
  | danglingSign (position : Nat)
  /-- After a sign, the character at this position does not begin a number. -/
  | signWithoutNumber (position : Nat)
  /-- The point at this position is the second one of its number. -/
  | secondPoint (position : Nat)
  /-- The character at this position does not begin a number. -/
  | notANumber (position : Nat)
  /-- The character at this position is not an operator. -/
  | notAnOperator (char : Char) (position : Nat)
  /-- The text ends at this position where a number is due. -/
  | missingNumber (position : Nat)
  /-- The tokens do not alternate between numbers and operators. -/
  | badOrder
  /-- The additive pass met a token that is neither plus nor minus. -/
  | strayOperator (symbol : String)
  /-- The text ends in a minus sign whose number was never typed. -/
  | unfinishedSign
  /-- Nothing is left to evaluate once the trailing operator is dropped. -/
  | noOperands
  /-- A divisor is too small. -/
  | divisionByZero
  /-- A result is not a finite number. -/
  | outOfRange (result : Double)
  deriving DecidableEq

namespace Fault

/-- The kind of a fault. -/
def kind : Fault → FaultKind
  | .divisionByZero => .divideByZero
  | .outOfRange _ => .overflow
  | _ => .malformed

/-- The position of the character that is to blame, if there is one. -/
def position : Fault → Option Nat
  | .danglingSign p | .signWithoutNumber p | .secondPoint p | .notANumber p
  | .notAnOperator _ p | .missingNumber p => some p
  | _ => none

/-- The wording of a fault. -/
def message : Fault → String
  | .danglingSign _ => "Dangling sign at end."
  | .signWithoutNumber _ => "Sign not followed by number."
  | .secondPoint _ => "Multiple dots in number."
  | .notANumber _ => "Invalid number."
  | .notAnOperator c _ =>
      "Unexpected character '" ++ String.singleton c ++ "' while expecting operator."
  | .missingNumber _ => "Expression ends with operator."
  | .badOrder => "Bad token ordering."
  | .strayOperator symbol => "Unexpected operator '" ++ symbol ++ "' in additive pass."
  | .unfinishedSign => "Expression ends with a dangling sign."
  | .noOperands => "Expression has no operands."
  | .divisionByZero => "Division by zero."
  | .outOfRange result => "Result out of range (" ++ result.text ++ ")."

end Fault

/-- How an evaluation ends. -/
inductive Outcome where
  | empty
  | value (x : Double)
  | failure (fault : Fault)
  deriving DecidableEq

namespace Outcome

/-- The value, if there is one. -/
def value? : Outcome → Option Double
  | .value x => some x
  | _ => none

/-- The fault, if there is one. -/
def fault? : Outcome → Option Fault
  | .failure f => some f
  | _ => none

/-- The wording of the fault, and nothing without one. -/
def message (o : Outcome) : String := (o.fault?.map Fault.message).getD ""

/-- The position of the fault, if it has one. -/
def position (o : Outcome) : Option Nat := o.fault?.bind Fault.position

/-- There is a value. -/
def isOk (o : Outcome) : Bool := o.value?.isSome

/-- There was nothing to evaluate. -/
def isEmpty (o : Outcome) : Bool := o == .empty

end Outcome

/-! ## Breakdowns -/

/-- Why an operation gives no answer at all. These are not faults of an expression: they are
the inputs on which the operation is not defined. -/
inductive Breakdown where
  /-- A list of tokens ends where an operand is due. -/
  | missingOperand
  /-- An infinity has no nearest integer. -/
  | infinityToInteger
  /-- NaN has no nearest integer. -/
  | nanToInteger
  deriving DecidableEq, Repr

/-- The wording of a breakdown. -/
def Breakdown.message : Breakdown → String
  | .missingOperand => "list index out of range"
  | .infinityToInteger => "cannot convert float infinity to integer"
  | .nanToInteger => "cannot convert float NaN to integer"

end DeskCalc
