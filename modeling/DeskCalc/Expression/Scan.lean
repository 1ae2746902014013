import DeskCalc.Expression.Token
import DeskCalc.Text.Characters
import DeskCalc.Text.Scanner

set_option autoImplicit false

/-! # From text to tokens

The scanner of expressions. An expression alternates between numbers and operators, with
blanks anywhere between them. A number is an optional sign followed, without a blank, by a run
of ASCII digits with at most one point in it; a point alone is zero. The scanner is in one of
four modes: it waits for a number (`operand`), has read a sign (`signed`), is within a number
(`literal`) or waits for an operator (`operator`).

Every fault names the first character that no continuation of the text could mend, or the end
of the text.
-/

namespace DeskCalc

/-! ## Literals -/

/-- The part of a number that has been read: its digits as one natural number, and how many
of them stand after the point, if the point has been read. -/
structure Literal where
  negative : Bool
  digits : Nat
  places : Option Nat
  deriving DecidableEq, Repr

namespace Literal

/-- A sign without digits. -/
def signed (negative : Bool) : Literal := ⟨negative, 0, none⟩

/-- One more digit. -/
def pushDigit (l : Literal) (c : Char) : Literal :=
  { l with
    digits := 10 * l.digits + (c.toNat - '0'.toNat)
    places := l.places.map (· + 1) }

/-- The point. -/
def pushPoint (l : Literal) : Literal := { l with places := some 0 }

/-- The number that has been read. -/
def value (l : Literal) : Double :=
  Double.ofDecimal l.negative ⟨l.digits, -((l.places.getD 0 : Nat) : Int)⟩

/-- The literal that begins with the character, if one can. -/
def begin? (negative : Bool) (c : Char) : Option Literal :=
  if c.isDigit then some ((signed negative).pushDigit c)
  else if c = '.' then some (signed negative).pushPoint
  else none

end Literal

/-! ## The scanner -/

namespace Scan

/-- What the scanner of expressions is doing. -/
inductive Mode where
  | operand
  | signed (negative : Bool)
  | literal (l : Literal)
  | operator
  deriving DecidableEq, Repr

/-- A character where a number is due. -/
def beginLiteral (negative : Bool) (c : Char) (otherwise : Fault) :
    Except Fault (List Token × Mode) :=
  match Literal.begin? negative c with
  | some l => .ok ([], .literal l)
  | none => .error otherwise

/-- A character where an operator is due. -/
def operatorStep (pos : Nat) (c : Char) : Except Fault (List Token × Mode) :=
  if isBlank c then .ok ([], .operator)
  else
    match Operator.ofChar? c with
    | some op => .ok ([.ofOperator op], .operand)
    | none => .error (.notAnOperator c pos)

/-- One character. -/
def step (pos : Nat) (mode : Mode) (c : Char) : Except Fault (List Token × Mode) :=
  match mode with
  | .operand =>
      if isBlank c then .ok ([], .operand)
      else if c = '+' then .ok ([], .signed false)
      else if c = '-' then .ok ([], .signed true)
      else beginLiteral false c (.notANumber pos)
  | .signed negative => beginLiteral negative c (.signWithoutNumber pos)
  | .literal l =>
      if c.isDigit then .ok ([], .literal (l.pushDigit c))
      else if c = '.' then
        if l.places.isSome then .error (.secondPoint pos) else .ok ([], .literal l.pushPoint)
      -- the character ends the number and is read as one after it
      else
        match operatorStep pos c with
        | .ok (tokens, next) => .ok (.number l.value :: tokens, next)
        | .error fault => .error fault
  | .operator => operatorStep pos c

/-- The end of the text. -/
def finish (pos : Nat) (mode : Mode) : Except Fault (List Token) :=
  match mode with
  | .operand => .error (.missingNumber pos)
  | .signed _ => .error (.danglingSign (pos - 1))
  | .literal l => .ok [.number l.value]
  | .operator => .ok []

/-- The scanner of expressions. -/
def scanner : Scanner Mode Token Fault := ⟨step, finish⟩

end Scan

/-- The tokens of an expression, which alternate between numbers and operators, or the fault
that the scanner met first. -/
def tokenize (text : List Char) : Except Fault (List Token) :=
  match Scan.scanner.run 0 .operand text with
  | .error fault => .error fault
  | .ok tokens => if isAlternating tokens then .ok tokens else .error .badOrder

end DeskCalc
