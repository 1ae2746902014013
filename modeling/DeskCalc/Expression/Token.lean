import DeskCalc.Expression.Outcome

set_option autoImplicit false

/-! # Operators and tokens

An expression is a list of numbers and operators.
-/

namespace DeskCalc

/-! ## The four operators

Each operator is one character. Elsewhere an operator is met as a character of an expression,
as the text of a key or as the text of a token; `ofChar?` and `ofText?` recognise it there.
-/

/-- A binary operator. -/
inductive Operator where
  | plus
  | minus
  | times
  | over
  deriving DecidableEq, Repr

namespace Operator

/-- The character of an operator. -/
def char : Operator → Char
  | .plus => '+'
  | .minus => '-'
  | .times => '*'
  | .over => '/'

/-- The operator with the given character. -/
def ofChar? : Char → Option Operator
  | '+' => some .plus
  | '-' => some .minus
  | '*' => some .times
  | '/' => some .over
  | _ => none

/-- The operator with the given text, which has to be a single character. -/
def ofText? : List Char → Option Operator
  | [c] => ofChar? c
  | _ => none

/-- The text of an operator. -/
def symbol (op : Operator) : String := String.singleton op.char

@[simp] theorem ofChar?_char (op : Operator) : ofChar? op.char = some op := by
  cases op <;> rfl

/-- A character stands for an operator exactly when it is that operator's character. -/
theorem ofChar?_eq_some_iff {c : Char} {op : Operator} : ofChar? c = some op ↔ c = op.char := by
  constructor
  · intro h
    unfold ofChar? at h
    split at h <;> simp_all <;> subst h <;> rfl
  · rintro rfl
    exact ofChar?_char op

@[simp] theorem ofText?_symbol (op : Operator) : ofText? op.symbol.toList = some op := by
  rw [symbol, String.toList_singleton]
  exact ofChar?_char op

end Operator

/-- The character is an operator. -/
def isOperator (c : Char) : Bool := (Operator.ofChar? c).isSome

theorem isOperator_iff (c : Char) : isOperator c = true ↔ ∃ op : Operator, c = op.char := by
  simp only [isOperator, Option.isSome_iff_exists, Operator.ofChar?_eq_some_iff]

/-! ## Tokens

Lists of tokens may also come from elsewhere and be in any order: a number then has the empty
symbol, and an operator, whatever its symbol, has the value zero.
-/

/-- A number or an operator. -/
inductive Token where
  | number (x : Double)
  | operator (symbol : String)
  deriving DecidableEq

namespace Token

/-- The token is a number. -/
def isNumber : Token → Bool
  | .number _ => true
  | .operator _ => false

/-- The number, and zero for an operator. -/
def value : Token → Double
  | .number x => x
  | .operator _ => Double.zero false

/-- The symbol of an operator, and the empty text for a number. -/
def symbol : Token → String
  | .number _ => ""
  | .operator s => s

/-- A token as text. -/
def text : Token → String
  | .number x => x.text
  | .operator s => s

/-- The token of an operator. -/
def ofOperator (op : Operator) : Token := .operator op.symbol

end Token

/-! ## Alternation -/

/-- Numbers and operators take turns, beginning with a number if the flag is set. -/
def takeTurns (numberNext : Bool) : List Token → Bool
  | [] => true
  | t :: ts => t.isNumber == numberNext && takeTurns (!numberNext) ts

/-- The list is not empty and numbers and operators take turns, a number first. -/
def isAlternating (tokens : List Token) : Bool := !tokens.isEmpty && takeTurns true tokens

end DeskCalc
