import DeskCalc.Double.Arithmetic
import DeskCalc.Expression.Scan
import DeskCalc.Expression.Token

set_option autoImplicit false

/-! # Evaluation

The value of an expression such as `12+3.5*-2`: products and quotients before sums and
differences, each from left to right.
-/

namespace DeskCalc

/-! ## The two reductions

A list of tokens is reduced twice. The multiplicative reduction folds every `*` and `/` into
the number before it and leaves the rest as it is; the additive reduction sums what remains.
Both go from left to right and stop at the first fault.

The reductions take any list of tokens. They look at the tokens in pairs, a symbol and the
token after it; a list that ends within a pair, or is empty, lacks an operand.

Which operations are performed on which numbers does not depend on what the operations
compute. They are therefore an argument (`Arithmetic`), which is double precision unless
another is given.
-/

/-- Why a reduction stops: at a fault of the expression, or because the list of tokens is no
expression. -/
inductive Halt where
  | fault (fault : Fault)
  | breakdown (breakdown : Breakdown)
  deriving DecidableEq

/-! ### Arithmetic -/

/-- The operations and tests that an evaluation performs on doubles. -/
structure Arithmetic where
  add : Double → Double → Double
  sub : Double → Double → Double
  mul : Double → Double → Double
  div : Double → Double → Double
  abs : Double → Double
  lt : Double → Double → Bool
  isFinite : Double → Bool

/-- The arithmetic of double precision. -/
def Arithmetic.double : Arithmetic where
  add := Double.add
  sub := Double.sub
  mul := Double.mul
  div := Double.div
  abs := Double.abs
  lt := Double.lt
  isFinite := Double.isFinite

/-! ### Steps -/

/-- Divisors of smaller magnitude count as zero: `10^-15`. -/
def leastDivisor : Double := Double.ofDecimal false ⟨1, -15⟩

namespace Arithmetic

variable (ops : Arithmetic)

/-- A finite result, or the fault of one that is not. -/
def inRange (x : Double) : Except Halt Double :=
  if ops.isFinite x then .ok x else .error (.fault (.outOfRange x))

/-- The product of two numbers. -/
def product (x y : Double) : Except Halt Double := ops.inRange (ops.mul x y)

/-- The quotient of two numbers. -/
def quotient (x y : Double) : Except Halt Double :=
  if ops.lt (ops.abs y) leastDivisor then .error (.fault .divisionByZero)
  else ops.inRange (ops.div x y)

/-- The step of a multiplicative symbol. -/
def multiplicative? (symbol : String) : Option (Double → Double → Except Halt Double) :=
  if symbol = "*" then some ops.product
  else if symbol = "/" then some ops.quotient
  else none

/-- The step of an additive symbol. -/
def additive? (symbol : String) : Option (Double → Double → Double) :=
  if symbol = "+" then some ops.add
  else if symbol = "-" then some ops.sub
  else none

end Arithmetic

/-! ### The multiplicative reduction -/

/-- The multiplicative reduction of the tokens after `current`, which the next factor or
divisor is folded into. -/
def foldProducts (ops : Arithmetic) (current : Token) : List Token → Except Halt (List Token)
  | [] => .ok [current]
  | [_] => .error (.breakdown .missingOperand)
  | symbol :: operand :: rest =>
      match ops.multiplicative? symbol.symbol with
      | some step =>
          match step current.value operand.value with
          | .error halt => .error halt
          | .ok x => foldProducts ops (.number x) rest
      -- the operand begins a new term, even if it is no number
      | none =>
          match foldProducts ops operand rest with
          | .error halt => .error halt
          | .ok reduced => .ok (current :: symbol :: reduced)

/-- The tokens with every product and quotient folded into one number. -/
def reduceProducts (tokens : List Token) (ops : Arithmetic := .double) :
    Except Halt (List Token) :=
  match tokens with
  | [] => .error (.breakdown .missingOperand)
  | first :: rest => foldProducts ops first rest

/-! ### The additive reduction -/

/-- The sum of a running total and the terms after it. -/
def foldSums (ops : Arithmetic) (total : Double) : List Token → Except Halt Double
  | [] => .ok total
  | [_] => .error (.breakdown .missingOperand)
  | symbol :: operand :: rest =>
      match ops.additive? symbol.symbol with
      | some step => foldSums ops (step total operand.value) rest
      | none => .error (.fault (.strayOperator symbol.symbol))

/-- The sum of the terms; only the last total has to be finite. -/
def reduceSums (tokens : List Token) (ops : Arithmetic := .double) : Except Halt Double :=
  match tokens with
  | [] => .error (.breakdown .missingOperand)
  | first :: rest =>
      match foldSums ops first.value rest with
      | .error halt => .error halt
      | .ok total => ops.inRange total

/-! ## Texts -/

/-- The outcome of a reduction. -/
def Outcome.ofReduction : Except Halt Double → Except Breakdown Outcome
  | .ok x => .ok (.value x)
  | .error (.fault f) => .ok (.failure f)
  | .error (.breakdown b) => .error b

/-- The value of a list of tokens, by the two reductions. -/
def reduceTokens (tokens : List Token) (ops : Arithmetic := .double) : Except Halt Double :=
  match reduceProducts tokens ops with
  | .error halt => .error halt
  | .ok reduced => reduceSums reduced ops

/-- The outcome of an expression. A text of blanks only has the empty outcome. -/
def evaluate (text : List Char) (ops : Arithmetic := .double) : Except Breakdown Outcome :=
  if text.all isBlank then .ok .empty
  else
    match tokenize text with
    | .error fault => .ok (.failure fault)
    | .ok tokens => Outcome.ofReduction (reduceTokens tokens ops)

end DeskCalc
